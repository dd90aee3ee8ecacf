import MethodSurvey.Proofs.Scan.CodeLines

/-! The statistics of a scan count what went through it: its lines, its code lines and
the events of either kind that it gave out. -/

namespace MethodSurvey.Scanner

variable (profile : Profile) (file : String)

theorem length_conforming?_eventsOf (declared : Option (List Char))
    (closed : Option (List Char × Nat)) :
    ((eventsOf file declared closed).filterMap Event.conforming?).length =
      declared.toList.length := by
  cases declared <;> cases closed <;> rfl

theorem length_record?_eventsOf (declared : Option (List Char))
    (closed : Option (List Char × Nat)) :
    ((eventsOf file declared closed).filterMap Event.record?).length = closed.toList.length := by
  rw [filterMap_record?_eventsOf]
  cases closed <;> rfl

theorem insideComment_step (s : Scanner) (line : List Char) :
    (s.step profile file line).1.insideComment = (codeLine s.insideComment line).2 := by
  cases hc : (codeLine s.insideComment line).1 with
  | none => exact (step_comment profile file hc).1
  | some code => exact (step_code profile file hc).1

theorem insideComment_scan (s : Scanner) (lines : List (List Char)) :
    (scan profile file s lines).1.insideComment = insideAfter s.insideComment lines := by
  induction lines generalizing s with
  | nil => rfl
  | cons line lines ih =>
    have hh := ih (s.step profile file line).1
    rw [insideComment_step] at hh
    exact hh

/-- Statistics with some lines, the code among them and the events that they gave added. -/
def addCounts (stats : Stats) (lines code : Nat) (events : List Event) : Stats :=
  { stats with
    lines := stats.lines + lines
    codeLines := stats.codeLines + code
    declarations := stats.declarations + (events.filterMap Event.conforming?).length
    methods := stats.methods + (events.filterMap Event.record?).length }

theorem addCounts_addCounts (stats : Stats) (lines lines' code code' : Nat)
    (events events' : List Event) :
    addCounts (addCounts stats lines code events) lines' code' events' =
      addCounts stats (lines + lines') (code + code') (events ++ events') := by
  simp only [addCounts, List.filterMap_append, List.length_append, Nat.add_assoc]

theorem stats_step (s : Scanner) (line : List Char) :
    (s.step profile file line).1.stats =
      addCounts s.stats 1 (codeLine s.insideComment line).1.toList.length
        (s.step profile file line).2 := by
  rcases hc : codeLine s.insideComment line with ⟨code, inside⟩
  cases code with
  | none => simp [step, hc, addCounts]
  | some code =>
    simp [step, hc, addCounts, length_conforming?_eventsOf, length_record?_eventsOf]

theorem stats_scan (s : Scanner) (lines : List (List Char)) :
    (scan profile file s lines).1.stats =
      addCounts s.stats lines.length (codeLines s.insideComment lines).length
        (scan profile file s lines).2 := by
  induction lines generalizing s with
  | nil => rfl
  | cons line lines ih =>
    have hh := ih (s.step profile file line).1
    rw [stats_step, insideComment_step, addCounts_addCounts] at hh
    rw [codeLines, List.length_append, List.length_cons, Nat.add_comm lines.length 1]
    exact hh

end MethodSurvey.Scanner
