import Mathlib.Data.List.Infix
import MethodSurvey.Declaration.Strict
import MethodSurvey.Proofs.Text.Runs

/-! The lines of the strict style: a modifier and a type in front of a signature, each part
a run of blanks or of word characters. A line is such a declaration exactly if it can be put
together from parts, and its name is theirs. -/

namespace MethodSurvey.Declaration.Strict

open Text

theorem run?_eq_some_iff {p : Char → Bool} {s run rest : List Char} :
    run? p s = some (run, rest) ↔
      s = run ++ rest ∧ run ≠ [] ∧ (∀ c ∈ run, p c = true) ∧ Stops p rest := by
  by_cases he : s.takeWhile p = []
  · simp only [run?, he, List.isEmpty_nil, if_true, reduceCtorEq, false_iff]
    rintro ⟨rfl, hne, hrun, hrest⟩
    exact hne (takeWhile_run hrun hrest ▸ he)
  · simp only [run?, List.isEmpty_iff, he, if_false, Option.some.injEq, Prod.mk.injEq]
    constructor
    · rintro ⟨rfl, rfl⟩
      exact ⟨List.takeWhile_append_dropWhile.symm, he, fun c hc => List.mem_takeWhile_imp hc,
        stops_dropWhile⟩
    · rintro ⟨rfl, -, hrun, hrest⟩
      exact ⟨takeWhile_run hrun hrest, dropWhile_run hrun hrest⟩

theorem nextWord?_eq_some_iff {s word rest : List Char} :
    nextWord? s = some (word, rest) ↔ ∃ gap, s = gap ++ (word ++ rest) ∧
      gap ≠ [] ∧ (∀ c ∈ gap, isBlank c = true) ∧
      word ≠ [] ∧ (∀ c ∈ word, isAsciiWord c = true) ∧ Stops isAsciiWord rest := by
  constructor
  · intro h
    obtain ⟨⟨gap, t⟩, hgap, hword⟩ := Option.bind_eq_some_iff.mp h
    obtain ⟨rfl, hne, hblank, -⟩ := run?_eq_some_iff.mp hgap
    obtain ⟨rfl, hw⟩ := run?_eq_some_iff.mp hword
    exact ⟨gap, rfl, hne, hblank, hw⟩
  · rintro ⟨gap, rfl, hne, hblank, hw⟩
    have hstop : Stops isBlank (word ++ rest) := stops_isBlank_word hw.1 hw.2.1
    exact Option.bind_eq_some_iff.mpr ⟨(gap, word ++ rest),
      run?_eq_some_iff.mpr ⟨rfl, hne, hblank, hstop⟩, run?_eq_some_iff.mpr ⟨rfl, hw⟩⟩

/-- The end of a declaration, from the parameters on. -/
def ending (parameters gap : List Char) : List Char :=
  parameters ++ ')' :: (gap ++ ['{'])

theorem reverse_ending (parameters gap : List Char) :
    (ending parameters gap).reverse = '{' :: (gap.reverse ++ ')' :: parameters.reverse) := by
  simp [ending]

theorem opensBody_iff {s : List Char} :
    opensBody s = true ↔ ∃ parameters gap, s = ending parameters gap ∧
      '\n' ∉ parameters ∧ ∀ c ∈ gap, isBlank c = true := by
  constructor
  · intro h
    rw [opensBody] at h
    split at h
    case h_1 start hs =>
      split at h
      case h_1 parameters hp =>
        refine ⟨parameters.reverse, (start.takeWhile isBlank).reverse, ?_, by simpa using h, ?_⟩
        · have hstart := List.takeWhile_append_dropWhile (p := isBlank) (l := start)
          rw [← List.reverse_inj, reverse_ending, hs, List.reverse_reverse, List.reverse_reverse,
            ← hp, hstart]
        · intro c hc
          exact List.mem_takeWhile_imp (List.mem_reverse.mp hc)
      case h_2 => simp at h
    case h_2 => simp at h
  · rintro ⟨parameters, gap, rfl, hp, hgap⟩
    have hgap' : ∀ c ∈ gap.reverse, isBlank c = true := fun c hc => hgap c (List.mem_reverse.mp hc)
    have hstop : Stops isBlank (')' :: parameters.reverse) := stops_cons (by decide)
    simp only [opensBody, reverse_ending, dropWhile_run hgap' hstop]
    simpa using hp

theorem isParameterList_iff {s : List Char} :
    isParameterList s = true ↔ ∃ gap rest, s = gap ++ '(' :: rest ∧
      (∀ c ∈ gap, isBlank c = true) ∧ opensBody rest = true := by
  constructor
  · intro h
    rw [isParameterList] at h
    split at h
    case h_1 rest hs =>
      refine ⟨s.takeWhile isBlank, rest, ?_, fun c hc => List.mem_takeWhile_imp hc, h⟩
      rw [← hs, trimStart, List.takeWhile_append_dropWhile]
    case h_2 => simp at h
  · rintro ⟨gap, rest, rfl, hgap, hrest⟩
    have hstop : Stops isBlank ('(' :: rest) := stops_cons (by decide)
    simp only [isParameterList, trimStart, dropWhile_run hgap hstop, hrest]

/-- The parts of a declaration from the blanks before its name on. -/
structure Signature where
  beforeName : List Char
  name : List Char
  afterName : List Char
  parameters : List Char
  beforeBody : List Char
  beforeName_ne_nil : beforeName ≠ []
  isBlank_beforeName : ∀ c ∈ beforeName, isBlank c = true
  name_ne_nil : name ≠ []
  isAsciiWord_name : ∀ c ∈ name, isAsciiWord c = true
  isBlank_afterName : ∀ c ∈ afterName, isBlank c = true
  lineFeed_not_mem_parameters : '\n' ∉ parameters
  isBlank_beforeBody : ∀ c ∈ beforeBody, isBlank c = true

namespace Signature

def text (g : Signature) : List Char :=
  g.beforeName ++ (g.name ++ (g.afterName ++ '(' :: ending g.parameters g.beforeBody))

theorem stops_text (g : Signature) : Stops isAsciiWord g.text :=
  stops_isAsciiWord_gap g.beforeName_ne_nil g.isBlank_beforeName

theorem stops_afterName (g : Signature) :
    Stops isAsciiWord (g.afterName ++ '(' :: ending g.parameters g.beforeBody) :=
  stops_append (fun _ => isAsciiWord_eq_false_of_isBlank) g.isBlank_afterName
    (stops_cons (by decide))

end Signature

/-- The name of a signature, if the text is one. -/
def signatureName? (s : List Char) : Option (List Char) := do
  let (name, rest) ← nextWord? s
  if isParameterList rest then some name else none

theorem signatureName?_eq_some_iff {s name : List Char} :
    signatureName? s = some name ↔ ∃ g : Signature, g.text = s ∧ g.name = name := by
  constructor
  · intro h
    obtain ⟨⟨word, rest⟩, hword, hrest⟩ := Option.bind_eq_some_iff.mp h
    simp only [Option.ite_none_right_eq_some, Option.some.injEq] at hrest
    obtain ⟨hlist, rfl⟩ := hrest
    obtain ⟨gap, rfl, hne, hblank, hname, hall, -⟩ := nextWord?_eq_some_iff.mp hword
    obtain ⟨after, t, rfl, hafter, ht⟩ := isParameterList_iff.mp hlist
    obtain ⟨parameters, behind, rfl, hp, hbehind⟩ := opensBody_iff.mp ht
    exact ⟨⟨gap, word, after, parameters, behind, hne, hblank, hname, hall, hafter, hp, hbehind⟩,
      rfl, rfl⟩
  · rintro ⟨g, rfl, rfl⟩
    have hword : nextWord? g.text =
        some (g.name, g.afterName ++ '(' :: ending g.parameters g.beforeBody) :=
      nextWord?_eq_some_iff.mpr ⟨g.beforeName, rfl, g.beforeName_ne_nil, g.isBlank_beforeName,
        g.name_ne_nil, g.isAsciiWord_name, g.stops_afterName⟩
    have hlist : isParameterList (g.afterName ++ '(' :: ending g.parameters g.beforeBody) = true :=
      isParameterList_iff.mpr ⟨g.afterName, _, rfl, g.isBlank_afterName,
        opensBody_iff.mpr ⟨_, _, rfl, g.lineFeed_not_mem_parameters, g.isBlank_beforeBody⟩⟩
    simp [signatureName?, hword, hlist]

/-- The parts of a line that declares a Java method. -/
structure JavaReading where
  modifier : List Char
  beforeType : List Char
  typeName : List Char
  signature : Signature
  modifier_mem : modifier ∈ javaModifiers.map String.toList
  beforeType_ne_nil : beforeType ≠ []
  isBlank_beforeType : ∀ c ∈ beforeType, isBlank c = true
  typeName_ne_nil : typeName ≠ []
  isAsciiWord_typeName : ∀ c ∈ typeName, isAsciiWord c = true

namespace JavaReading

def line (r : JavaReading) : List Char :=
  r.modifier ++ (r.beforeType ++ (r.typeName ++ r.signature.text))

def name (r : JavaReading) : List Char := r.signature.name

end JavaReading

/-- No modifier begins with another one. -/
theorem afterModifier?_append {modifier : List Char}
    (h : modifier ∈ javaModifiers.map String.toList) (rest : List Char) :
    afterModifier? (modifier ++ rest) = some rest := by
  simp only [javaModifiers, List.map_cons, List.map_nil, List.mem_cons, List.not_mem_nil,
    or_false] at h
  rcases h with rfl | rfl | rfl <;>
    simp [afterModifier?, javaModifiers, List.isPrefixOf?]

theorem afterModifier?_eq_some_iff {line rest : List Char} :
    afterModifier? line = some rest ↔
      ∃ modifier ∈ javaModifiers.map String.toList, line = modifier ++ rest := by
  constructor
  · intro h
    obtain ⟨word, hword, hrest⟩ := List.exists_of_findSome?_eq_some h
    exact ⟨word.toList, List.mem_map_of_mem hword,
      (List.isPrefixOf?_eq_some_iff_append_eq.mp hrest).symm⟩
  · rintro ⟨modifier, hm, rfl⟩
    exact afterModifier?_append hm rest

theorem javaName?_eq_bind (line : List Char) :
    javaName? line = (afterModifier? line).bind fun rest =>
      (nextWord? rest).bind fun p => signatureName? p.2 := rfl

theorem javaName?_eq_some_iff {line name : List Char} :
    javaName? line = some name ↔ ∃ r : JavaReading, r.line = line ∧ r.name = name := by
  rw [javaName?_eq_bind, Option.bind_eq_some_iff]
  constructor
  · rintro ⟨rest, hm, h⟩
    obtain ⟨⟨word, t⟩, hword, hname⟩ := Option.bind_eq_some_iff.mp h
    obtain ⟨modifier, hmem, rfl⟩ := afterModifier?_eq_some_iff.mp hm
    obtain ⟨gap, rfl, hne, hblank, hnonempty, hall, -⟩ := nextWord?_eq_some_iff.mp hword
    obtain ⟨g, rfl, rfl⟩ := signatureName?_eq_some_iff.mp hname
    exact ⟨⟨modifier, gap, word, g, hmem, hne, hblank, hnonempty, hall⟩, rfl, rfl⟩
  · rintro ⟨r, rfl, rfl⟩
    have hword : nextWord? (r.beforeType ++ (r.typeName ++ r.signature.text)) =
        some (r.typeName, r.signature.text) :=
      nextWord?_eq_some_iff.mpr ⟨r.beforeType, rfl, r.beforeType_ne_nil, r.isBlank_beforeType,
        r.typeName_ne_nil, r.isAsciiWord_typeName, r.signature.stops_text⟩
    exact ⟨_, afterModifier?_append r.modifier_mem _, Option.bind_eq_some_iff.mpr
      ⟨_, hword, signatureName?_eq_some_iff.mpr ⟨r.signature, rfl, rfl⟩⟩⟩

end MethodSurvey.Declaration.Strict
