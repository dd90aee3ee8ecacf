import MethodSurvey.Proofs.Scan.Counts

/-! Every method that closes was declared before, by a declaration of its own: at any point of
a scan the methods that closed and the one that is open are at most as many as the
declarations. -/

namespace MethodSurvey

namespace Tracker

/-- One if a method is open. -/
def openCount (t : Tracker) : Nat :=
  t.current.toList.length

/-- What a closing brace gives out is the method that was open. -/
theorem openCount_leave (t : Tracker) (line : List Char) :
    (t.leave line).2.toList.length + (t.leave line).1.openCount = t.openCount := by
  by_cases hc : line.contains '}' = true ∧ t.depth = 1
  · rw [leave_of_closing hc.1 hc.2]
    cases hn : t.current <;> simp [openCount, hn]
  · rw [leave_of_not_closing hc]
    simp [openCount]

/-- A code line closes only what was open before it or what it declares itself. A method that
is dropped is what makes the two sides differ. -/
theorem openCount_step (t : Tracker) (declared : Option (List Char)) (line : List Char) :
    (t.step declared line).2.toList.length + (t.step declared line).1.openCount ≤
      t.openCount + declared.toList.length := by
  rcases t.step_cases declared line with ⟨s, -, hs, hstep⟩ | ⟨-, -, hstep⟩ <;> rw [hstep]
  · have hleave := openCount_leave (s.enter line) line
    have hsame : (s.enter line).openCount = s.openCount := rfl
    rw [hleave, hsame]
    rcases hs with ⟨rfl, rfl⟩ | ⟨name, rfl, rfl⟩
    · exact Nat.le_add_right _ _
    · exact Nat.le_add_left _ _
  · simp

end Tracker

namespace Scanner

variable (profile : Profile) (file : String)

theorem openCount_follow (t : Tracker) (code : List (List Char)) :
    ((follow profile file t code).2.filterMap Event.record?).length +
        (follow profile file t code).1.openCount ≤
      t.openCount + ((follow profile file t code).2.filterMap Event.conforming?).length := by
  induction code generalizing t with
  | nil => simp [follow]
  | cons line code ih =>
    have hstep := t.openCount_step (profile.declaredName? line) line
    have hrest := ih (t.step (profile.declaredName? line) line).1
    simp only [follow, List.filterMap_append, List.length_append, length_record?_eventsOf,
      length_conforming?_eventsOf]
    omega

theorem openCount_scan (s : Scanner) (lines : List (List Char)) :
    ((scan profile file s lines).2.filterMap Event.record?).length +
        (scan profile file s lines).1.tracker.openCount ≤
      s.tracker.openCount +
        ((scan profile file s lines).2.filterMap Event.conforming?).length := by
  have hs := scan_eq_follow profile file s lines
  rw [hs.1, hs.2]
  exact openCount_follow profile file s.tracker _

/-- A scan reports no more methods than declarations, whatever follows. -/
theorem length_methods_scan_le (lines : List (List Char)) :
    ((scan profile file {} lines).2.filterMap Event.record?).length ≤
      ((scan profile file {} lines).2.filterMap Event.conforming?).length := by
  have hs := openCount_scan profile file {} lines
  have hnone : ({} : Scanner).tracker.openCount = 0 := rfl
  omega

end Scanner

end MethodSurvey
