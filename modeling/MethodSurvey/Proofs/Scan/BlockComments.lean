import MethodSurvey.Proofs.Scan.CodeLines

/-! Block comments, read off the lines as a whole: one is open where some line opens it and no
line since then closes it. -/

namespace MethodSurvey.LineKind

variable (lines : List (List Char)) (k : Nat)

/-- Line `k` without the blanks at its ends begins with the mark. -/
def Begins (mark : List Char) : Prop :=
  ∃ line, lines[k]? = some line ∧ mark <+: Text.trim line

/-- Line `k` without the blanks at its ends ends with the mark of a block comment. -/
def Closes : Prop :=
  ∃ line, lines[k]? = some line ∧ blockClosing <:+ Text.trim line

variable {lines k} in
theorem begins_iff {line : List Char} (h : lines[k]? = some line) (mark : List Char) :
    Begins lines k mark ↔ mark <+: Text.trim line := by
  simp [Begins, h]

variable {lines k} in
theorem closes_iff {line : List Char} (h : lines[k]? = some line) :
    Closes lines k ↔ blockClosing <:+ Text.trim line := by
  simp [Closes, h]

theorem inside_classify_iff (inside : Bool) (line : List Char) :
    (classify inside line).2 = true ↔
      (inside = true ∨ blockOpening <+: line) ∧ ¬ blockClosing <:+ line := by
  by_cases h : inside = true ∨ blockOpening <+: line
  · have hb : (inside || blockOpening.isPrefixOf line) = true := by simpa using h
    rw [classify, if_pos hb, and_iff_right h, ← List.isSuffixOf_iff_suffix, Bool.not_eq_true,
      Bool.not_eq_true']
  · have hb : ¬ (inside || blockOpening.isPrefixOf line) = true := by simpa using h
    rw [classify, if_neg hb]
    split <;> simp [h]

theorem classify_eq_comment_iff (inside : Bool) (line : List Char) :
    (classify inside line).1 = comment ↔
      lineMark <+: line ∨ blockOpening <+: line ∨ inside = true := by
  by_cases h : inside = true ∨ blockOpening <+: line
  · have hb : (inside || blockOpening.isPrefixOf line) = true := by simpa using h
    rw [classify, if_pos hb]
    exact iff_of_true rfl (.inr h.symm)
  · have hb : ¬ (inside || blockOpening.isPrefixOf line) = true := by simpa using h
    rw [classify, if_neg hb, or_iff_left (mt Or.symm h), ← List.isPrefixOf_iff_prefix]
    split
    case isTrue hm => exact iff_of_true rfl hm
    case isFalse hm => exact iff_of_false nofun hm

theorem inside_codeLine (inside : Bool) (line : List Char) :
    (Scanner.codeLine inside line).2 = (classify inside (Text.trim line)).2 := by
  rcases hc : classify inside (Text.trim line) with ⟨kind, after⟩
  cases kind <;> simp [Scanner.codeLine, hc]

theorem length_classifyAll (inside : Bool) : (classifyAll inside lines).length = lines.length := by
  induction lines generalizing inside with
  | nil => rfl
  | cons line lines ih => exact congrArg (· + 1) (ih _)

/-- Line `k` is classified by itself and by what the lines before it have left open. -/
theorem getElem?_classifyAll (inside : Bool) :
    (classifyAll inside lines)[k]? = lines[k]?.map fun line =>
      classify (Scanner.insideAfter inside (lines.take k)) (Text.trim line) := by
  induction lines generalizing inside k with
  | nil => rfl
  | cons line lines ih =>
    cases k with
    | zero => rfl
    | succ k =>
      rw [classifyAll, List.getElem?_cons_succ, ih, List.getElem?_cons_succ, List.take_succ_cons,
        Scanner.insideAfter, inside_codeLine]

theorem insideAfter_take_succ_iff (inside : Bool) :
    Scanner.insideAfter inside (lines.take (k + 1)) = true ↔
      (Scanner.insideAfter inside (lines.take k) = true ∨ Begins lines k blockOpening) ∧
        ¬ Closes lines k := by
  rw [List.take_add_one, Scanner.insideAfter_append]
  cases hk : lines[k]? with
  | none => simp [Scanner.insideAfter, Begins, Closes, hk]
  | some line =>
    rw [begins_iff hk, closes_iff hk, ← inside_classify_iff, ← inside_codeLine]
    rfl

/-- What openers set and closers clear is set if no closer has come since some opener; where both
come at once, the closer counts. -/
theorem latched_iff (opens closes : Nat → Prop) (state : Nat → Bool) (hstart : state 0 = false)
    (hstep : ∀ k, state (k + 1) = true ↔ (state k = true ∨ opens k) ∧ ¬ closes k) (k : Nat) :
    state k = true ↔ ∃ i < k, opens i ∧ ∀ j, i ≤ j → j < k → ¬ closes j := by
  induction k with
  | zero => simp [hstart]
  | succ k ih =>
    rw [hstep, ih]
    constructor
    · rintro ⟨⟨i, hi, ho, hc⟩ | ho, hk⟩
      · refine ⟨i, by omega, ho, fun j hij hj => ?_⟩
        rcases Nat.lt_succ_iff_lt_or_eq.mp hj with hlt | rfl
        · exact hc j hij hlt
        · exact hk
      · refine ⟨k, by omega, ho, fun j hkj hj => ?_⟩
        obtain rfl : j = k := by omega
        exact hk
    · rintro ⟨i, hi, ho, hc⟩
      refine ⟨?_, hc k (by omega) (by omega)⟩
      rcases Nat.lt_succ_iff_lt_or_eq.mp hi with hlt | rfl
      · exact .inl ⟨i, hlt, ho, fun j hij hj => hc j hij (by omega)⟩
      · exact .inr ho

theorem insideAfter_take_iff :
    Scanner.insideAfter false (lines.take k) = true ↔
      ∃ i < k, Begins lines i blockOpening ∧ ∀ j, i ≤ j → j < k → ¬ Closes lines j :=
  latched_iff (Begins lines · blockOpening) (Closes lines ·)
    (fun k => Scanner.insideAfter false (lines.take k)) rfl
    (fun k => insideAfter_take_succ_iff lines k false) k

/-- A block comment is open after a line if that line or one before it opens one and no line from
there on closes it. A line is a comment if it begins with a mark or if a block comment is open
before it. -/
theorem classifyAll_closed_form (lines : List (List Char)) :
    (classifyAll false lines).length = lines.length ∧
      ∀ k kind inside, (classifyAll false lines)[k]? = some (kind, inside) →
        (inside = true ↔ ∃ i ≤ k, Begins lines i blockOpening ∧
          ∀ j, i ≤ j → j ≤ k → ¬ Closes lines j) ∧
        (kind = comment ↔ Begins lines k lineMark ∨ Begins lines k blockOpening ∨
          ∃ i < k, Begins lines i blockOpening ∧ ∀ j, i ≤ j → j < k → ¬ Closes lines j) := by
  refine ⟨length_classifyAll lines false, fun k kind inside h => ?_⟩
  rw [getElem?_classifyAll, Option.map_eq_some_iff] at h
  obtain ⟨line, hline, hclass⟩ := h
  have hafter := insideAfter_take_iff lines (k + 1)
  simp only [Nat.lt_succ_iff] at hafter
  have hinside := inside_classify_iff (Scanner.insideAfter false (lines.take k)) (Text.trim line)
  have hkind := classify_eq_comment_iff (Scanner.insideAfter false (lines.take k)) (Text.trim line)
  rw [hclass, ← begins_iff hline] at hinside hkind
  constructor
  · rw [hinside, ← closes_iff hline, ← insideAfter_take_succ_iff, hafter]
  · rw [hkind, ← begins_iff hline, insideAfter_take_iff]

/-- A line comment that is inside a block comment closes it, and a mark that opens and closes at
once leaves nothing open; before them, what follows a closing mark keeps its comment open. -/
theorem classifyAll_of_overlapping :
    let lines := ["/* a", "*/ b", " // c */", "d */", "\t/*/", "e"].map String.toList
    (classifyAll false lines)[1]? = some (comment, true) ∧
      (∃ i ≤ 1, Begins lines i blockOpening ∧ ∀ j, i ≤ j → j ≤ 1 → ¬ Closes lines j) ∧
      (classifyAll false lines)[3]? = some (code, false) ∧
      (classifyAll false lines)[4]? = some (comment, false) ∧
      ¬ ∃ i ≤ 4, Begins lines i blockOpening ∧ ∀ j, i ≤ j → j ≤ 4 → ¬ Closes lines j := by
  intro lines
  have hclosed := (classifyAll_closed_form lines).2
  have hsecond : (classifyAll false lines)[1]? = some (comment, true) := by decide
  have hfifth : (classifyAll false lines)[4]? = some (comment, false) := by decide
  exact ⟨hsecond, (hclosed 1 comment true hsecond).1.mp rfl, by decide, hfifth,
    mt (hclosed 4 comment false hfifth).1.mpr Bool.false_ne_true⟩

end MethodSurvey.LineKind
