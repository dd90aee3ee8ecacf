import Mathlib.Data.List.Basic
import MethodSurvey.Declaration
import MethodSurvey.Branching

/-! Where the body of a declared method ends, read off the code lines as a whole:
no state is carried from one line to the next. -/

namespace MethodSurvey.Extent

variable (profile : Profile) (code : List (List Char))

def declared? (i : Nat) : Option (List Char) :=
  code[i]?.bind profile.declaredName?

/-- The first declaration after line `i`, or the number of lines if there is none. -/
def nextDeclaration (i : Nat) : Nat :=
  ((List.range code.length).find? fun e =>
    decide (i < e) && (declared? profile code e).isSome).getD code.length

/-- How many of the lines from `i` on and before `j` meet `p`. -/
def countBetween (p : List Char → Bool) (i j : Nat) : Nat :=
  ((code.take j).drop i).countP p

/-- The lines with an opening brace up to line `j` and including it, less those with
a closing brace before line `j`, both counted from line `i` on. -/
def depthAt (i j : Nat) : Int :=
  countBetween code (·.contains '{') i (j + 1) - countBetween code (·.contains '}') i j

/-- Whether line `j` has a closing brace at depth 1. -/
def closesAt (i j : Nat) : Bool :=
  (code[j]?.any (·.contains '}')) && decide (depthAt code i j = 1)

/-- The line that ends the body of the declaration on line `i`: the first one from
line `i` on that closes, if it comes before the next declaration. -/
def closing? (i : Nat) : Option Nat :=
  (List.range (nextDeclaration profile code i)).find? fun j => decide (i ≤ j) && closesAt code i j

def complexity (i j : Nat) : Nat :=
  countBetween code hasControlKeyword i (j + 1)

def IsLast (i : Nat) : Prop :=
  (declared? profile code i).isSome ∧ ∀ k, i < k → declared? profile code k = none

theorem declared?_of_length_le {i : Nat} (h : code.length ≤ i) :
    declared? profile code i = none := by
  simp [declared?, List.getElem?_eq_none h]

theorem lt_length_of_declared? {i : Nat} {name : List Char}
    (h : declared? profile code i = some name) : i < code.length := by
  by_contra hi
  simp [declared?_of_length_le profile code (Nat.le_of_not_lt hi)] at h

theorem lt_nextDeclaration_iff {i j : Nat} :
    j < nextDeclaration profile code i ↔
      j < code.length ∧ ∀ k, i < k → k ≤ j → declared? profile code k = none := by
  unfold nextDeclaration
  cases he : (List.range code.length).find? fun e =>
      decide (i < e) && (declared? profile code e).isSome with
  | none =>
    have hn : ∀ k < code.length, i < k → declared? profile code k = none := by
      simpa [List.find?_range_eq_none] using he
    simp only [Option.getD_none]
    exact ⟨fun hj => ⟨hj, fun k hk hkj => hn k (by omega) hk⟩, And.left⟩
  | some e =>
    obtain ⟨⟨hie, hd⟩, hel, hn⟩ : (i < e ∧ (declared? profile code e).isSome) ∧ e < code.length ∧
        ∀ k < e, k ≤ i ∨ declared? profile code k = none := by
      simpa [List.find?_range_eq_some] using he
    simp only [Option.getD_some]
    refine ⟨fun hj => ⟨by omega, fun k hk hkj => (hn k (by omega)).resolve_left (by omega)⟩,
      fun hj => ?_⟩
    by_contra hle
    simp [hj.2 e hie (by omega)] at hd

theorem closing?_eq_some_iff {i j : Nat} :
    closing? profile code i = some j ↔
      i ≤ j ∧ j < code.length ∧ (∀ k, i < k → k ≤ j → declared? profile code k = none) ∧
        closesAt code i j = true ∧ ∀ k, i ≤ k → k < j → closesAt code i k = false := by
  have hf : closing? profile code i = some j ↔
      (i ≤ j ∧ closesAt code i j = true) ∧ j < nextDeclaration profile code i ∧
        ∀ k < j, k < i ∨ closesAt code i k = false := by
    simp [closing?, List.find?_range_eq_some]
  rw [hf]
  constructor
  · rintro ⟨⟨hij, hc⟩, hj, hn⟩
    have hj' := (lt_nextDeclaration_iff profile code).mp hj
    exact ⟨hij, hj'.1, hj'.2, hc, fun k hik hkj => (hn k hkj).resolve_left (by omega)⟩
  · rintro ⟨hij, hj, hd, hc, hn⟩
    exact ⟨⟨hij, hc⟩, (lt_nextDeclaration_iff profile code).mpr ⟨hj, hd⟩,
      fun k hkj => (Nat.lt_or_ge k i).imp_right fun hik => hn k hik hkj⟩

-- Two opening braces on one line count once, so this body ends a line early.
example : closing? ⟨.java, .leading⟩
    (["public void f() \x7b", "if (a) \x7b if (b) \x7b", "\x7d", "\x7d", "\x7d"].map
      String.toList) 0 = some 3 := by
  decide

theorem closing?_eq_none_iff {i : Nat} :
    closing? profile code i = none ↔
      ∀ j, i ≤ j → j < code.length → (∀ k, i < k → k ≤ j → declared? profile code k = none) →
        closesAt code i j = false := by
  have hf : closing? profile code i = none ↔
      ∀ j < nextDeclaration profile code i, i ≤ j → closesAt code i j = false := by
    simp [closing?]
  rw [hf]
  exact ⟨fun h j hij hj hd => h j ((lt_nextDeclaration_iff profile code).mpr ⟨hj, hd⟩) hij,
    fun h j hj hij => (fun hh => h j hij hh.1 hh.2) ((lt_nextDeclaration_iff profile code).mp hj)⟩

/-! The lines up to `j` decide what happens on line `j`. -/

variable (rest : List (List Char))

theorem declared?_append {j : Nat} (hj : j < code.length) :
    declared? profile (code ++ rest) j = declared? profile code j := by
  simp [declared?, List.getElem?_append_left hj]

theorem countBetween_append (p : List Char → Bool) (i : Nat) {j : Nat} (hj : j ≤ code.length) :
    countBetween (code ++ rest) p i j = countBetween code p i j := by
  simp [countBetween, List.take_append_of_le_length hj]

theorem closesAt_append (i : Nat) {j : Nat} (hj : j < code.length) :
    closesAt (code ++ rest) i j = closesAt code i j := by
  have hd : depthAt (code ++ rest) i j = depthAt code i j := by
    simp only [depthAt, countBetween_append code rest _ i (show j + 1 ≤ code.length from hj),
      countBetween_append code rest _ i (Nat.le_of_lt hj)]
  rw [closesAt, closesAt, hd, List.getElem?_append_left hj]

theorem complexity_append (i : Nat) {j : Nat} (hj : j < code.length) :
    complexity (code ++ rest) i j = complexity code i j :=
  countBetween_append code rest _ i hj

theorem closing?_append (i : Nat) {j : Nat} (hj : j < code.length) :
    closing? profile (code ++ rest) i = some j ↔ closing? profile code i = some j := by
  have hl : j < (code ++ rest).length := by rw [List.length_append]; omega
  have hd : (∀ k, i < k → k ≤ j → declared? profile (code ++ rest) k = none) ↔
      ∀ k, i < k → k ≤ j → declared? profile code k = none :=
    forall_congr' fun k => forall₂_congr fun _ hk => by
      rw [declared?_append profile code rest (by omega : k < code.length)]
  have hn : (∀ k, i ≤ k → k < j → closesAt (code ++ rest) i k = false) ↔
      ∀ k, i ≤ k → k < j → closesAt code i k = false :=
    forall_congr' fun k => forall₂_congr fun _ hk => by
      rw [closesAt_append code rest i (by omega : k < code.length)]
  rw [closing?_eq_some_iff, closing?_eq_some_iff, closesAt_append code rest i hj, hd, hn]
  simp only [hj, hl]

theorem countBetween_succ {p : List Char → Bool} {i j : Nat} {line : List Char}
    (hij : i ≤ j) (hj : code[j]? = some line) :
    countBetween code p i (j + 1) = countBetween code p i j + if p line then 1 else 0 := by
  have hl : j < code.length := (List.getElem?_eq_some_iff.mp hj).1
  have ht : (code.take (j + 1)).drop i = (code.take j).drop i ++ [line] := by
    rw [List.take_add_one, hj, List.drop_append_of_le_length (by simp; omega)]
    rfl
  by_cases hp : p line <;> simp [countBetween, ht, hp]

end MethodSurvey.Extent
