import MethodSurvey.Scan.Scanner

/-! A scan sees the code lines of a file and nothing else of it: its events and its
tracker are those that the tracker alone makes of them. -/

namespace MethodSurvey.Scanner

/-- The code lines among the lines, trimmed. -/
def codeLines : Bool → List (List Char) → List (List Char)
  | _, [] => []
  | inside, line :: lines =>
    (codeLine inside line).1.toList ++ codeLines (codeLine inside line).2 lines

def insideAfter : Bool → List (List Char) → Bool
  | inside, [] => inside
  | inside, line :: lines => insideAfter (codeLine inside line).2 lines

/-- The tracker after some code lines, and the events that they give. -/
def follow (profile : Profile) (file : String) : Tracker → List (List Char) → Tracker × List Event
  | t, [] => (t, [])
  | t, line :: lines =>
    let declared := profile.declaredName? line
    let (t, closed) := t.step declared line
    let (t, later) := follow profile file t lines
    (t, eventsOf file declared closed ++ later)

theorem filterMap_record?_eventsOf (file : String) (declared : Option (List Char))
    (closed : Option (List Char × Nat)) :
    (eventsOf file declared closed).filterMap Event.record? =
      (closed.map fun (name, complexity) => ⟨String.ofList name, file, complexity⟩).toList := by
  cases declared <;> cases closed <;> rfl

variable (profile : Profile) (file : String)

theorem follow_append (t : Tracker) (before after : List (List Char)) :
    follow profile file t (before ++ after) =
      ((follow profile file (follow profile file t before).1 after).1,
        (follow profile file t before).2 ++
          (follow profile file (follow profile file t before).1 after).2) := by
  induction before generalizing t with
  | nil => rfl
  | cons line before ih => simp [follow, ih]

theorem step_comment {s : Scanner} {line : List Char}
    (h : (codeLine s.insideComment line).1 = none) :
    (s.step profile file line).1.insideComment = (codeLine s.insideComment line).2 ∧
      (s.step profile file line).1.tracker = s.tracker ∧ (s.step profile file line).2 = [] := by
  rcases hc : codeLine s.insideComment line with ⟨code, inside⟩
  obtain rfl : code = none := by simpa only [hc] using h
  simp [step, hc]

theorem step_code {s : Scanner} {line code : List Char}
    (h : (codeLine s.insideComment line).1 = some code) :
    (s.step profile file line).1.insideComment = (codeLine s.insideComment line).2 ∧
      (s.step profile file line).1.tracker =
        (s.tracker.step (profile.declaredName? code) code).1 ∧
      (s.step profile file line).2 = eventsOf file (profile.declaredName? code)
        (s.tracker.step (profile.declaredName? code) code).2 := by
  rcases hc : codeLine s.insideComment line with ⟨code', inside⟩
  obtain rfl : code' = some code := by simpa only [hc] using h
  simp [step, hc]

/-- Comment lines are invisible to the tracker and give no events. -/
theorem scan_eq_follow (s : Scanner) (lines : List (List Char)) :
    (scan profile file s lines).1.tracker =
        (follow profile file s.tracker (codeLines s.insideComment lines)).1 ∧
      (scan profile file s lines).2 =
        (follow profile file s.tracker (codeLines s.insideComment lines)).2 := by
  induction lines generalizing s with
  | nil => exact ⟨rfl, rfl⟩
  | cons line lines ih =>
    have hh := ih (s.step profile file line).1
    cases hc : (codeLine s.insideComment line).1 with
    | none =>
      have hs := step_comment profile file hc
      simpa [scan, codeLines, hc, hs] using hh
    | some code =>
      have hs := step_code profile file hc
      rw [hs.1, hs.2.1] at hh
      simp [scan, codeLines, follow, hc, hs, hh]

theorem insideAfter_append (inside : Bool) (before after : List (List Char)) :
    insideAfter inside (before ++ after) =
      insideAfter (insideAfter inside before) after := by
  induction before generalizing inside with
  | nil => rfl
  | cons line before ih => exact ih _

theorem codeLines_append (inside : Bool) (before after : List (List Char)) :
    codeLines inside (before ++ after) =
      codeLines inside before ++ codeLines (insideAfter inside before) after := by
  induction before generalizing inside with
  | nil => rfl
  | cons line before ih => simp [codeLines, insideAfter, ih]

theorem codeLines_take (inside : Bool) (lines : List (List Char)) (p : Nat) :
    codeLines inside (lines.take p) <+: codeLines inside lines := by
  have ha := codeLines_append inside (lines.take p) (lines.drop p)
  rw [List.take_append_drop] at ha
  rw [ha]
  exact List.prefix_append _ _

end MethodSurvey.Scanner
