import MethodSurvey.Proofs.Scan.BlockComments
import MethodSurvey.Proofs.Scan.Counts

/-! Deleting the comment lines of a file. What is left holds no comment, not even an open one,
and scans as the whole file does. -/

namespace MethodSurvey

namespace LineKind

/-- The lines of a file that are code where they stand. -/
def withoutComments (inside : Bool) (lines : List (List Char)) : List (List Char) :=
  ((lines.zip (classifyAll inside lines)).filter fun entry => entry.2.1 = code).map Prod.fst

def commentCount (inside : Bool) (lines : List (List Char)) : Nat :=
  (classifyAll inside lines).countP fun entry => entry.1 = comment

theorem classify_of_code {inside : Bool} {line : List Char}
    (h : (classify inside line).1 = code) :
    classify inside line = (code, false) ∧ classify false line = (code, false) := by
  have hk : ¬ (lineMark <+: line ∨ blockOpening <+: line ∨ inside = true) := by
    rw [← classify_eq_comment_iff, h]
    exact nofun
  simp only [not_or, Bool.not_eq_true] at hk
  obtain ⟨hmark, hopening, rfl⟩ := hk
  have hc : classify false line = (code, false) := by
    simp [classify, List.isPrefixOf_iff_prefix, hmark, hopening]
  exact ⟨hc, hc⟩

theorem withoutComments_cons (inside : Bool) (line : List Char) (lines : List (List Char)) :
    withoutComments inside (line :: lines) =
      (if (classify inside (Text.trim line)).1 = code then [line] else []) ++
        withoutComments (classify inside (Text.trim line)).2 lines := by
  by_cases h : (classify inside (Text.trim line)).1 = code <;>
    simp [withoutComments, classifyAll, h]

theorem classifyAll_withoutComments (inside : Bool) (lines : List (List Char)) :
    ∀ entry ∈ classifyAll false (withoutComments inside lines), entry = (code, false) := by
  induction lines generalizing inside with
  | nil => simp [withoutComments, classifyAll]
  | cons line lines ih =>
    rw [withoutComments_cons]
    by_cases h : (classify inside (Text.trim line)).1 = code
    · -- A line that is kept leaves no comment open, and nothing was open before it.
      have hc := classify_of_code h
      have hh := ih (classify inside (Text.trim line)).2
      simpa [h, classifyAll, hc.2] using hh
    · simpa [h] using ih _

theorem length_withoutComments (inside : Bool) (lines : List (List Char)) :
    (withoutComments inside lines).length + commentCount inside lines = lines.length := by
  induction lines generalizing inside with
  | nil => rfl
  | cons line lines ih =>
    have hh := ih (classify inside (Text.trim line)).2
    rw [withoutComments_cons]
    simp only [commentCount, classifyAll, List.length_append, List.countP_cons] at hh ⊢
    cases (classify inside (Text.trim line)).1 <;> simp <;> omega

/-- Line `k` is a line comment, or it lies in a block comment that it may open itself. -/
def Commented (lines : List (List Char)) (k : Nat) : Prop :=
  Begins lines k lineMark ∨
    ∃ i ≤ k, Begins lines i blockOpening ∧ ∀ j, i ≤ j → j < k → ¬ Closes lines j

theorem commented_iff {lines : List (List Char)} {k : Nat} {line : List Char}
    (h : lines[k]? = some line) :
    Commented lines k ↔
      (classify (Scanner.insideAfter false (lines.take k)) (Text.trim line)).1 = comment := by
  rw [classify_eq_comment_iff, ← begins_iff h, ← begins_iff h, insideAfter_take_iff]
  constructor
  · rintro (hmark | ⟨i, hi, hopening, hopen⟩)
    · exact .inl hmark
    · by_cases hik : i = k
      · exact .inr (.inl (hik ▸ hopening))
      · exact .inr (.inr ⟨i, by omega, hopening, hopen⟩)
  · rintro (hmark | hopening | ⟨i, hi, hopening, hopen⟩)
    · exact .inl hmark
    · exact .inr ⟨k, Nat.le_refl k, hopening, fun j hj hjk => by omega⟩
    · exact .inr ⟨i, by omega, hopening, hopen⟩

theorem forall_commented_iff {lines : List (List Char)} :
    (∀ k < lines.length, Commented lines k) ↔
      ∀ entry ∈ classifyAll false lines, entry.1 = comment := by
  constructor
  · intro h entry he
    obtain ⟨k, hk⟩ := List.mem_iff_getElem?.mp he
    rw [getElem?_classifyAll, Option.map_eq_some_iff] at hk
    obtain ⟨line, hline, rfl⟩ := hk
    have hlt : k < lines.length := (List.getElem?_eq_some_iff.mp hline).1
    exact (commented_iff hline).mp (h k hlt)
  · intro h k hlt
    have hline := List.getElem?_eq_getElem hlt
    have hentry := getElem?_classifyAll lines k false
    rw [hline, Option.map_some] at hentry
    exact (commented_iff hline).mpr (h _ (List.mem_of_getElem? hentry))

theorem withoutComments_of_commented {lines : List (List Char)}
    (h : ∀ k < lines.length, Commented lines k) : withoutComments false lines = [] := by
  have hall : ∀ entry ∈ classifyAll false lines, decide (entry.1 = comment) = true :=
    fun entry he => decide_eq_true (forall_commented_iff.mp h entry he)
  have hcount : commentCount false lines = lines.length := by
    rw [commentCount, List.countP_eq_length.mpr hall, length_classifyAll]
  have hlen := length_withoutComments false lines
  exact List.length_eq_zero_iff.mp (by omega)

end LineKind

namespace Scanner

open LineKind

theorem codeLine_of_code {inside : Bool} {line : List Char}
    (h : (classify inside (Text.trim line)).1 = code) :
    codeLine inside line = (some (Text.trim line), false) := by
  simp [codeLine, (classify_of_code h).1]

theorem codeLine_of_comment {inside : Bool} {line : List Char}
    (h : (classify inside (Text.trim line)).1 ≠ code) :
    codeLine inside line = (none, (classify inside (Text.trim line)).2) := by
  rcases hc : classify inside (Text.trim line) with ⟨kind, after⟩
  cases kind with
  | comment => simp [codeLine, hc]
  | code => simp [hc] at h

theorem codeLines_withoutComments (inside : Bool) (lines : List (List Char)) :
    codeLines false (withoutComments inside lines) = codeLines inside lines := by
  induction lines generalizing inside with
  | nil => rfl
  | cons line lines ih =>
    rw [withoutComments_cons]
    by_cases h : (classify inside (Text.trim line)).1 = code
    · have hc := classify_of_code h
      have hkept : codeLine false line = (some (Text.trim line), false) :=
        codeLine_of_code (by rw [hc.2])
      simp [codeLines, codeLine_of_code h, hkept, hc.1, ih]
    · simp [h, codeLines, codeLine_of_comment h, ih]

theorem scan_eq_of_codeLines_eq (profile : Profile) (file : String) {lines lines' : List (List Char)}
    (h : codeLines false lines = codeLines false lines') :
    (scan profile file {} lines).2 = (scan profile file {} lines').2 ∧
      (scan profile file {} lines).1.tracker = (scan profile file {} lines').1.tracker := by
  have hs := scan_eq_follow profile file {} lines
  have hs' := scan_eq_follow profile file {} lines'
  rw [show ({} : Scanner).insideComment = false from rfl] at hs hs'
  rw [hs.1, hs.2, hs'.1, hs'.2, h]
  exact ⟨rfl, rfl⟩

/-- Deleting the comment lines of a file leaves code lines only. They give the same events as the
whole file and the same statistics, but for the number of lines, which is lower by the lines that
were deleted. A file of nothing but comments gives no events and counts lines only. -/
theorem scan_withoutComments (profile : Profile) (file : String) (lines : List (List Char)) :
    let kept := withoutComments false lines
    let whole := scan profile file {} lines
    (∀ entry ∈ classifyAll false kept, entry = (code, false)) ∧
      (scan profile file {} kept).2 = whole.2 ∧
      whole.1.finish =
        { (scan profile file {} kept).1.finish with
          lines := (scan profile file {} kept).1.finish.lines + commentCount false lines } ∧
      ((∀ k < lines.length, Commented lines k) →
        whole.2 = [] ∧ whole.1.finish = { lines := lines.length }) := by
  intro kept whole
  have hcode : codeLines false kept = codeLines false lines := codeLines_withoutComments false lines
  have hlen : kept.length + commentCount false lines = lines.length :=
    length_withoutComments false lines
  obtain ⟨hevents, htracker⟩ := scan_eq_of_codeLines_eq profile file hcode
  have hfinish : whole.1.finish =
      { (scan profile file {} kept).1.finish with
        lines := (scan profile file {} kept).1.finish.lines + commentCount false lines } := by
    simp only [whole, finish, stats_scan, addCounts, ← htracker, ← hevents, hcode, Nat.zero_add,
      hlen]
  refine ⟨classifyAll_withoutComments false lines, hevents, hfinish, fun h => ?_⟩
  have hnil : kept = [] := withoutComments_of_commented h
  rw [hnil] at hevents hfinish hlen
  refine ⟨hevents.symm, ?_⟩
  rw [hfinish, ← hlen]
  rfl

/-- Comments before a body, inside it and after it, the last of them never closed, and a file with
declarations in comments only. -/
theorem scan_withoutComments_of_declarations :
    let lines := ["/* public void f() \x7b", "\x7d */", "public void run() \x7b", "// if (a) \x7b",
      "/* \x7d", "*/", "if (b) c();", "\x7d", "\t/* d", "public void g() \x7b"].map String.toList
    let comments :=
      ["// public void f() \x7b", " /* e", "public void g() \x7b", "*/", "/*", "\x7d"].map String.toList
    withoutComments false lines = ["public void run() \x7b", "if (b) c();", "\x7d"].map String.toList ∧
      (scan ⟨.java, .leading⟩ "A.java" {} lines).2 =
        [.declaration true, .method ⟨"run", "A.java", 1⟩] ∧
      (scan ⟨.java, .leading⟩ "A.java" {} lines).1.finish = ⟨10, 3, 1, 1, false⟩ ∧
      (∀ k < comments.length, Commented comments k) ∧
      (scan ⟨.java, .leading⟩ "A.java" {} comments).2 = [] ∧
      (scan ⟨.java, .leading⟩ "A.java" {} comments).1.finish = ⟨6, 0, 0, 0, false⟩ := by
  intro lines comments
  obtain ⟨-, hevents, hfinish, -⟩ := scan_withoutComments ⟨.java, .leading⟩ "A.java" lines
  obtain ⟨-, -, -, hnothing⟩ := scan_withoutComments ⟨.java, .leading⟩ "A.java" comments
  have hcommented : ∀ k < comments.length, Commented comments k :=
    forall_commented_iff.mpr (by decide)
  obtain ⟨hsilent, hcounts⟩ := hnothing hcommented
  have hkept : withoutComments false lines =
      ["public void run() \x7b", "if (b) c();", "\x7d"].map String.toList := by decide
  have hcount : commentCount false lines = 7 := by decide
  rw [hkept] at hevents
  rw [hkept, hcount] at hfinish
  refine ⟨hkept, ?_, ?_, hcommented, hsilent, hcounts⟩
  · rw [← hevents]
    decide
  · rw [hfinish]
    decide

end Scanner

end MethodSurvey
