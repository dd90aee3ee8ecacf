import MethodSurvey.Declaration
import MethodSurvey.Proofs.Declaration.Strict

/-! A line has one reading at most in the strict style: no part of it can begin or end anywhere
else, since each is a run of characters that the next part stops. -/

namespace MethodSurvey.Declaration.Strict

open Text

theorem ending_inj {parameters gap parameters' gap' : List Char}
    (h : ending parameters gap = ending parameters' gap') (hgap : ∀ c ∈ gap, isBlank c = true)
    (hgap' : ∀ c ∈ gap', isBlank c = true) : parameters = parameters' ∧ gap = gap' := by
  -- The parameters end at the last parenthesis, so the run is that of the line from its end.
  have hreverse := congrArg List.reverse h
  rw [reverse_ending, reverse_ending, List.cons.injEq, and_iff_right rfl] at hreverse
  have hstop (s : List Char) : Stops isBlank (')' :: s) := stops_cons (by decide)
  obtain ⟨hg, hp⟩ := append_inj_of_stops hreverse
    (fun c hc => hgap c (List.mem_reverse.mp hc)) (hstop _)
    (fun c hc => hgap' c (List.mem_reverse.mp hc)) (hstop _)
  exact ⟨List.reverse_inj.mp (List.cons.inj hp).2, List.reverse_inj.mp hg⟩

theorem Signature.text_injective : Function.Injective Signature.text := by
  intro g g' h
  obtain ⟨hbefore, h⟩ := append_inj_of_stops h
    g.isBlank_beforeName (stops_isBlank_word g.name_ne_nil g.isAsciiWord_name)
    g'.isBlank_beforeName (stops_isBlank_word g'.name_ne_nil g'.isAsciiWord_name)
  obtain ⟨hname, h⟩ := append_inj_of_stops h
    g.isAsciiWord_name g.stops_afterName g'.isAsciiWord_name g'.stops_afterName
  have hparen (s : List Char) : Stops isBlank ('(' :: s) := stops_cons (by decide)
  obtain ⟨hafter, h⟩ := append_inj_of_stops h
    g.isBlank_afterName (hparen _) g'.isBlank_afterName (hparen _)
  obtain ⟨hparameters, hbody⟩ := ending_inj (List.cons.inj h).2
    g.isBlank_beforeBody g'.isBlank_beforeBody
  cases g
  cases g'
  congr

theorem isAsciiWord_modifier {modifier : List Char}
    (h : modifier ∈ javaModifiers.map String.toList) : ∀ c ∈ modifier, isAsciiWord c = true := by
  have hall : (javaModifiers.map String.toList).all (·.all isAsciiWord) = true := by decide
  exact List.all_eq_true.mp (List.all_eq_true.mp hall modifier h)

theorem JavaReading.line_injective : Function.Injective JavaReading.line := by
  intro r r' h
  obtain ⟨hmodifier, h⟩ := append_inj_of_stops h
    (isAsciiWord_modifier r.modifier_mem)
    (stops_isAsciiWord_gap r.beforeType_ne_nil r.isBlank_beforeType)
    (isAsciiWord_modifier r'.modifier_mem)
    (stops_isAsciiWord_gap r'.beforeType_ne_nil r'.isBlank_beforeType)
  obtain ⟨hbefore, h⟩ := append_inj_of_stops h
    r.isBlank_beforeType (stops_isBlank_word r.typeName_ne_nil r.isAsciiWord_typeName)
    r'.isBlank_beforeType (stops_isBlank_word r'.typeName_ne_nil r'.isAsciiWord_typeName)
  obtain ⟨htype, h⟩ := append_inj_of_stops h
    r.isAsciiWord_typeName r.signature.stops_text r'.isAsciiWord_typeName r'.signature.stops_text
  have hsignature := Signature.text_injective h
  cases r
  cases r'
  congr

/-- The line that declares a Kotlin function with this signature. -/
def Signature.functionLine (g : Signature) : List Char :=
  ['f', 'u', 'n'] ++ g.text

theorem Signature.functionLine_injective : Function.Injective Signature.functionLine :=
  fun _ _ h => text_injective (List.append_cancel_left h)

theorem kotlinName?_eq_bind (line : List Char) :
    kotlinName? line = (['f', 'u', 'n'].isPrefixOf? line).bind signatureName? := rfl

theorem kotlinName?_eq_some_iff {line name : List Char} :
    kotlinName? line = some name ↔ ∃ g : Signature, g.functionLine = line ∧ g.name = name := by
  rw [kotlinName?_eq_bind, Option.bind_eq_some_iff]
  constructor
  · rintro ⟨rest, hfun, hname⟩
    obtain ⟨g, rfl, rfl⟩ := signatureName?_eq_some_iff.mp hname
    exact ⟨g, List.isPrefixOf?_eq_some_iff_append_eq.mp hfun, rfl⟩
  · rintro ⟨g, rfl, rfl⟩
    exact ⟨g.text, List.isPrefixOf?_eq_some_iff_append_eq.mpr rfl,
      signatureName?_eq_some_iff.mpr ⟨g, rfl, rfl⟩⟩

/-- The strict style declares a name on exactly those lines that have a reading with that name,
and no line has two readings. -/
theorem strict_declares_iff (line name : List Char) :
    (Profile.declaredName? ⟨.java, .strict⟩ line = some name ↔
        ∃ r : JavaReading, r.line = line ∧ r.name = name) ∧
      (Profile.declaredName? ⟨.kotlin, .strict⟩ line = some name ↔
        ∃ g : Signature, g.functionLine = line ∧ g.name = name) ∧
      (∀ r r' : JavaReading, r.line = line → r'.line = line → r = r') ∧
      (∀ g g' : Signature, g.functionLine = line → g'.functionLine = line → g = g') :=
  ⟨javaName?_eq_some_iff, kotlinName?_eq_some_iff,
    fun _ _ h h' => JavaReading.line_injective (h.trans h'.symm),
    fun _ _ h h' => Signature.functionLine_injective (h.trans h'.symm)⟩

-- Only the last parenthesis ends the parameters, and line feeds are blanks outside them.
example : Profile.declaredName? ⟨.kotlin, .strict⟩ "fun\n f\t(g(x)) )\u2028\n\x7b".toList =
    some ['f'] := by
  decide

end MethodSurvey.Declaration.Strict
