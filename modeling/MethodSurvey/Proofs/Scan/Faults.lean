import MethodSurvey.Proofs.Scan.Boundary
import MethodSurvey.Proofs.Text.Pieces
import MethodSurvey.Scan.Source

/-! A fault in reading takes the line that it breaks off and the method that is open: what the
scan has given out by then is what the completed lines give. -/

namespace MethodSurvey

/-- A method that is open after a line is the one declared on it, or it was open before and the
line declares nothing. The line closes none. -/
theorem Tracker.step_of_current {t : Tracker} {declared : Option (List Char)}
    {line name : List Char} (h : (t.step declared line).1.current = some name) :
    (t.step declared line).2 = none ∧
      (declared = some name ∨ declared = none ∧ t.current = some name) := by
  rcases t.step_cases declared line with ⟨s, -, hs, hstep⟩ | ⟨hnone, -, hstep⟩
  · by_cases hc : line.contains '}' = true ∧ (s.enter line).depth = 1
    · rw [hstep, leave_of_closing hc.1 hc.2] at h
      cases h
    · rw [hstep, leave_of_not_closing hc] at h ⊢
      have hname : s.current = some name := h
      refine ⟨rfl, ?_⟩
      rcases hs with ⟨hnone, rfl⟩ | ⟨declaredName, hd, rfl⟩
      · exact .inr ⟨hnone, hname⟩
      · obtain rfl : declaredName = name := Option.some.inj hname
        exact .inl hd
  · rw [hstep] at h ⊢
    exact ⟨rfl, .inr ⟨hnone, h⟩⟩

namespace Scanner

variable (profile : Profile) (file : String)

theorem getLast?_follow_of_current {code : List (List Char)} {name : List Char}
    (h : (follow profile file {} code).1.current = some name) :
    (follow profile file {} code).2.getLast? = some (.declaration (conforms name)) := by
  induction code using List.reverseRecOn with
  | nil => cases h
  | append_singleton code line ih =>
    have ha := follow_append profile file {} code [line]
    rw [ha] at h ⊢
    -- A line that leaves a method open gives out its declaration or nothing.
    obtain ⟨hclosed, hdeclared⟩ := Tracker.step_of_current h
    rcases hdeclared with hd | ⟨hd, hopen⟩
    · rw [hd] at hclosed
      simp [follow, hclosed, hd, eventsOf]
    · rw [hd] at hclosed
      simp [follow, hclosed, hd, eventsOf, ih hopen]

theorem getLast?_scan_of_current {lines : List (List Char)} {name : List Char}
    (h : (scan profile file {} lines).1.tracker.current = some name) :
    (scan profile file {} lines).2.getLast? = some (.declaration (conforms name)) := by
  have hs := scan_eq_follow profile file {} lines
  rw [hs.1] at h
  rw [hs.2]
  exact getLast?_follow_of_current profile file h

theorem scan_prefix_scan (s : Scanner) {lines lines' : List (List Char)} (h : lines <+: lines') :
    (scan profile file s lines).2 <+: (scan profile file s lines').2 := by
  obtain ⟨later, rfl⟩ := h
  rw [(scan_append profile file s lines later).1]
  exact List.prefix_append _ _

end Scanner

namespace Source

theorem linesOfStream_of_fault {bytes completed : List UInt8} (fault : Fault)
    (h : Text.LongestEnded 10 bytes completed) :
    linesOfStream { bytes, fault := some fault } = linesOfStream { bytes := completed } := by
  simp only [linesOfStream, h.completePieces_eq]

theorem linesOfStream_prefix_of_fault (bytes : List UInt8) (fault : Fault) :
    linesOfStream { bytes, fault := some fault } <+: linesOfStream { bytes } := by
  simp only [linesOfStream, Text.allPieces, List.map_append]
  exact List.prefix_append _ _

/-- A fault after some bytes is given out as the error of the scan. The events are those of the
bytes up to the last line feed, so they come first in a scan that the fault does not cut short.
The method that is open at the fault has been declared last, and is not among them. -/
theorem scanStream_of_fault (profile : Profile) (file : String) (bytes : List UInt8)
    (fault : Fault) :
    let broken := scanStream profile file { bytes, fault := some fault }
    let scanner :=
      (Scanner.scan profile file {} (linesOfStream { bytes, fault := some fault })).1
    broken.outcome = .error fault ∧
      (∃ completed, Text.LongestEnded 10 bytes completed ∧
        broken.events = (scanStream profile file { bytes := completed }).events) ∧
      broken.events <+: (scanStream profile file { bytes }).events ∧
      ∀ name, scanner.tracker.current = some name →
        broken.events.getLast? = some (.declaration (conforms name)) := by
  intro broken scanner
  obtain ⟨completed, hcompleted⟩ := Text.exists_longestEnded 10 bytes
  have hevents : broken.events = (scanStream profile file { bytes := completed }).events := by
    simp only [broken, scanStream, linesOfStream_of_fault fault hcompleted]
  refine ⟨rfl, ⟨completed, hcompleted, hevents⟩, ?_, fun name hname => ?_⟩
  · exact Scanner.scan_prefix_scan profile file {} (linesOfStream_prefix_of_fault bytes fault)
  · exact Scanner.getLast?_scan_of_current profile file hname

/-- The last line would close the second method, and is lost since no line feed ends it. -/
theorem scanStream_of_fault_in_last_line :
    let bytes := Text.Utf8.encode "public void a() \x7b\n\x7d\npublic void b() \x7b\n\x7d".toList
    let fault := Fault.other "disk went away"
    let broken := scanStream ⟨.java, .leading⟩ "A.java" { bytes, fault := some fault }
    let scanner :=
      (Scanner.scan ⟨.java, .leading⟩ "A.java" {} (linesOfStream { bytes, fault := some fault })).1
    scanner.tracker.current = some ['b'] ∧
      broken.outcome = .error fault ∧ broken.events.getLast? = some (.declaration true) ∧
      broken.events <+:
        [.declaration true, .method ⟨"a", "A.java", 0⟩, .declaration true,
          .method ⟨"b", "A.java", 0⟩] := by
  intro bytes fault broken scanner
  obtain ⟨hfault, -, hwhole, hlast⟩ := scanStream_of_fault ⟨.java, .leading⟩ "A.java" bytes fault
  have hopen : scanner.tracker.current = some ['b'] := by decide +kernel
  have hevents : (scanStream ⟨.java, .leading⟩ "A.java" { bytes }).events =
      [.declaration true, .method ⟨"a", "A.java", 0⟩, .declaration true,
        .method ⟨"b", "A.java", 0⟩] := by decide +kernel
  rw [hevents] at hwhole
  exact ⟨hopen, hfault, hlast ['b'] hopen, hwhole⟩

end Source

end MethodSurvey
