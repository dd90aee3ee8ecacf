import MethodSurvey.Proofs.Declaration.FirstSpace
import MethodSurvey.Proofs.Declaration.JavaStyles
import MethodSurvey.Proofs.Declaration.Readings

/-! Where a declared name stands in its line: it is a part of the line in front of the first
parenthesis. The leading style cuts it off at an offset in bytes, and declares nothing where that
offset lies inside a character or is not in front of the parenthesis. -/

namespace MethodSurvey.Declaration

open Text

variable {line before name gap : List Char}

/-- A name in its line, with what stands before it and the gap between it and the first
parenthesis. -/
structure Placed (line before name gap : List Char) : Prop where
  ne_nil : name ≠ []
  paren_not_mem : '(' ∉ name
  line_eq : ∃ rest, line = before ++ (name ++ (gap ++ '(' :: rest))
  first_paren : '(' ∉ before ++ (name ++ gap)

theorem Placed.mem_line (h : Placed line before name gap) {c : Char} (hc : c ∈ name) :
    c ∈ line := by
  obtain ⟨rest, rfl⟩ := h.line_eq
  exact List.mem_append_right before (List.mem_append_left _ hc)

namespace Leading

/-- Whether the line begins like a declaration of the language. -/
def opens : Language → List Char → Bool
  | .java, line => javaModifiers.any (·.toList.isPrefixOf line)
  | .kotlin, line => (afterFun? line).isSome

/-- The offset in bytes from which the name is read. -/
def nameOffset : Language → List Char → Nat
  | .java, line => (afterReturnType? line).getD (afterFirstSpace line)
  | .kotlin, line => afterFirstSpace line

theorem declaredName?_eq (language : Language) (line : List Char) :
    Profile.declaredName? ⟨language, .leading⟩ line =
      if opens language line then nameFrom? (nameOffset language line) line else none := by
  cases language <;> rfl

/-- There is a parenthesis, and the offset lies in front of the first one. -/
def BeforeParen (line : List Char) (offset : Nat) : Prop :=
  ∃ span rest, line = span ++ '(' :: rest ∧ '(' ∉ span ∧ offset < byteLength span

theorem exists_nameFrom?_iff {offset : Nat} : (∃ name, nameFrom? offset line = some name) ↔
    IsBoundary line offset ∧ BeforeParen line offset := by
  constructor
  · rintro ⟨name, h⟩
    obtain ⟨start, rest, rfl, hspan, hne, rfl⟩ := nameFrom?_iff.mp h
    have hlt : byteLength start < byteLength (start ++ name) := by
      have hpos := byteLength_pos hne
      rw [byteLength_append]
      omega
    exact ⟨⟨start, ⟨name ++ '(' :: rest, by simp⟩, rfl⟩, start ++ name, rest, rfl, hspan, hlt⟩
  · rintro ⟨⟨start, hstart, rfl⟩, span, rest, rfl, hspan, hlt⟩
    obtain ⟨name, rfl⟩ :=
      prefix_of_byteLength_le hstart (List.prefix_append span ('(' :: rest)) (Nat.le_of_lt hlt)
    have hne : name ≠ [] := by
      rintro rfl
      rw [List.append_nil] at hlt
      exact Nat.lt_irrefl _ hlt
    exact ⟨name, (nameFrom?_eq_some_self_iff hspan hne).mpr rfl⟩

theorem declaredName?_eq_none_iff {language : Language} :
    Profile.declaredName? ⟨language, .leading⟩ line = none ↔
      opens language line = false ∨ ¬ IsBoundary line (nameOffset language line) ∨
        ¬ BeforeParen line (nameOffset language line) := by
  rw [declaredName?_eq, ← not_and_or, ← exists_nameFrom?_iff]
  cases opens language line with
  | false => simp
  | true => simp [Option.eq_none_iff_forall_ne_some]

theorem placed_of_declaredName? {language : Language}
    (h : Profile.declaredName? ⟨language, .leading⟩ line = some name) :
    ∃ before, Placed line before name [] ∧ byteLength before = nameOffset language line := by
  rw [declaredName?_eq, Option.ite_none_right_eq_some] at h
  obtain ⟨before, rest, hline, hspan, hne, hoffset⟩ := nameFrom?_iff.mp h.2
  have hname : '(' ∉ name := fun hc => hspan (List.mem_append_right before hc)
  exact ⟨before, ⟨hne, hname, ⟨rest, by simp [hline]⟩, by simpa using hspan⟩, hoffset⟩

end Leading

namespace Strict

theorem Signature.placed (g : Signature) (hbefore : '(' ∉ before) :
    Placed (before ++ g.text) (before ++ g.beforeName) g.name g.afterName where
  ne_nil := g.name_ne_nil
  paren_not_mem := paren_not_mem_of_isAsciiWord g.isAsciiWord_name
  line_eq := ⟨ending g.parameters g.beforeBody, by simp [text]⟩
  first_paren := by
    have hspan := g.paren_not_mem_untilParameters
    simp only [untilParameters, List.append_assoc, List.mem_append, not_or] at hspan ⊢
    exact ⟨hbefore, hspan⟩

/-- Either language declares a name by a signature behind a text without a parenthesis. -/
theorem exists_signature_of_declaredName? {language : Language}
    (h : Profile.declaredName? ⟨language, .strict⟩ line = some name) :
    ∃ before, ∃ g : Signature, line = before ++ g.text ∧ '(' ∉ before ∧ g.name = name := by
  cases language with
  | java =>
    obtain ⟨r, rfl, rfl⟩ := javaName?_eq_some_iff.mp h
    exact ⟨r.untilType, r.signature, r.line_eq, r.paren_not_mem_untilType, rfl⟩
  | kotlin =>
    obtain ⟨g, rfl, rfl⟩ := kotlinName?_eq_some_iff.mp h
    exact ⟨['f', 'u', 'n'], g, rfl, by decide, rfl⟩

theorem placed_of_declaredName? {language : Language}
    (h : Profile.declaredName? ⟨language, .strict⟩ line = some name) :
    ∃ before gap, Placed line before name gap ∧ (∀ c ∈ gap, isBlank c = true) ∧
      ∀ c ∈ name, isAsciiWord c = true := by
  obtain ⟨before, g, rfl, hbefore, rfl⟩ := exists_signature_of_declaredName? h
  exact ⟨_, g.afterName, g.placed hbefore, g.isBlank_afterName, g.isAsciiWord_name⟩

end Strict

/-- What a style asks for besides the place of a name: the leading one that the name begins at its
offset and ends at the parenthesis, the strict one that it is a word with blanks behind it. -/
def Admits (profile : Profile) (line before name gap : List Char) : Prop :=
  match profile.style with
  | .leading => byteLength before = Leading.nameOffset profile.language line ∧ gap = []
  | .strict => (∀ c ∈ name, isAsciiWord c = true) ∧ ∀ c ∈ gap, isBlank c = true

theorem exists_placed_of_declaredName? {profile : Profile}
    (h : profile.declaredName? line = some name) :
    ∃ before gap, Placed line before name gap ∧ Admits profile line before name gap := by
  obtain ⟨language, style⟩ := profile
  cases style with
  | leading =>
    obtain ⟨before, hplaced, hoffset⟩ := Leading.placed_of_declaredName? h
    exact ⟨before, [], hplaced, hoffset, rfl⟩
  | strict =>
    obtain ⟨before, gap, hplaced, hgap, hname⟩ := Strict.placed_of_declaredName? h
    exact ⟨before, gap, hplaced, hname, hgap⟩

end MethodSurvey.Declaration
