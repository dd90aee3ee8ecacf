import MethodSurvey.Proofs.Scan.Counts

/-! A file can be cut where no block comment and no method is open, or where an open method
is dropped by the declaration that comes next: nothing before the cut shows after it. -/

namespace MethodSurvey

theorem Tracker.leave_atRest_or_open {t : Tracker} (ho : t.isOpen = true) (line : List Char) :
    (t.leave line).1 = {} ∨ (t.leave line).1.isOpen = true := by
  by_cases hc : line.contains '}' = true ∧ t.depth = 1
  · left
    rw [leave_of_closing hc.1 hc.2]
  · right
    rw [leave_of_not_closing hc]
    exact ho

/-- A tracker without an open method has kept nothing of the methods before. -/
theorem Tracker.step_atRest_or_open {t : Tracker} (h : t = {} ∨ t.isOpen = true)
    (declared : Option (List Char)) (line : List Char) :
    (t.step declared line).1 = {} ∨ (t.step declared line).1.isOpen = true := by
  rcases t.step_cases declared line with ⟨s, ho, -, hstep⟩ | ⟨-, -, hstep⟩ <;> rw [hstep]
  · exact leave_atRest_or_open (t := s.enter line) ho line
  · exact h

namespace Scanner

variable (profile : Profile) (file : String)

theorem follow_atRest_or_open {t : Tracker} (h : t = {} ∨ t.isOpen = true)
    (code : List (List Char)) :
    (follow profile file t code).1 = {} ∨ (follow profile file t code).1.isOpen = true := by
  induction code generalizing t with
  | nil => exact h
  | cons line code ih => exact ih (Tracker.step_atRest_or_open h _ line)

theorem tracker_scan_of_not_isOpen {lines : List (List Char)}
    (h : (scan profile file {} lines).1.tracker.isOpen = false) :
    (scan profile file {} lines).1.tracker = {} := by
  have hs := (scan_eq_follow profile file {} lines).1
  rcases follow_atRest_or_open profile file (.inl rfl) (codeLines false lines) with hr | ho
  · exact hs.trans hr
  · rw [hs] at h
    exact absurd (h.symm.trans ho) Bool.false_ne_true

/-- A declaration on the first code line makes the tracker forget what it followed before. -/
theorem follow_of_declaration {code : List (List Char)}
    (h : (code.head?.bind profile.declaredName?).isSome = true) (t : Tracker) :
    follow profile file t code = follow profile file {} code := by
  cases code with
  | nil => simp at h
  | cons line code =>
    obtain ⟨name, hn⟩ := Option.isSome_iff_exists.mp h
    have hd : profile.declaredName? line = some name := hn
    simp only [follow, hd, Tracker.step_some]

end Scanner

/-- The statistics of two files that stand one after the other as one. -/
def Stats.followedBy (first second : Stats) : Stats where
  lines := first.lines + second.lines
  codeLines := first.codeLines + second.codeLines
  declarations := first.declarations + second.declarations
  methods := first.methods + second.methods
  unclosed := second.unclosed

namespace Scanner

variable (profile : Profile) (file : String)

theorem scan_append (s : Scanner) (before after : List (List Char)) :
    (scan profile file s (before ++ after)).2 =
        (scan profile file s before).2 ++
          (follow profile file (scan profile file s before).1.tracker
            (codeLines (insideAfter s.insideComment before) after)).2 ∧
      (scan profile file s (before ++ after)).1.tracker =
        (follow profile file (scan profile file s before).1.tracker
          (codeLines (insideAfter s.insideComment before) after)).1 := by
  have hb := scan_eq_follow profile file s before
  have ha := scan_eq_follow profile file s (before ++ after)
  rw [codeLines_append, follow_append, ← hb.1, ← hb.2] at ha
  exact ⟨ha.2, ha.1⟩

theorem finish_append {before after : List (List Char)}
    (hcode : codeLines false (before ++ after) = codeLines false before ++ codeLines false after)
    (hevents : (scan profile file {} (before ++ after)).2 =
      (scan profile file {} before).2 ++ (scan profile file {} after).2)
    (htracker : (scan profile file {} (before ++ after)).1.tracker =
      (scan profile file {} after).1.tracker) :
    (scan profile file {} (before ++ after)).1.finish =
      (scan profile file {} before).1.finish.followedBy (scan profile file {} after).1.finish := by
  simp only [finish, stats_scan, htracker, hevents, hcode, addCounts, Stats.followedBy,
    List.filterMap_append, List.length_append, Nat.zero_add]

/-- Lines scanned up to a point outside comments, where no method is open or the next code
line declares one, and the lines after it scan together as they do apart: the events follow
one another, the counts add up and the method that is open at the end is that of the second
part. -/
theorem scan_append_of_boundary (profile : Profile) (file : String)
    (before after : List (List Char))
    (houtside : (scan profile file {} before).1.insideComment = false)
    (hfresh : (scan profile file {} before).1.tracker.isOpen = false ∨
      ((codeLines false after).head?.bind profile.declaredName?).isSome = true) :
    (scan profile file {} (before ++ after)).2 =
        (scan profile file {} before).2 ++ (scan profile file {} after).2 ∧
      (scan profile file {} (before ++ after)).1.finish =
        (scan profile file {} before).1.finish.followedBy
          (scan profile file {} after).1.finish := by
  have hinside : insideAfter false before = false :=
    (insideComment_scan profile file {} before).symm.trans houtside
  have hcode : codeLines false (before ++ after) =
      codeLines false before ++ codeLines false after := by
    rw [codeLines_append, hinside]
  have hforget : follow profile file (scan profile file {} before).1.tracker
      (codeLines false after) = follow profile file {} (codeLines false after) := by
    rcases hfresh with hclosed | hdeclared
    · rw [tracker_scan_of_not_isOpen profile file hclosed]
    · exact follow_of_declaration profile file hdeclared _
  have happ := scan_append profile file {} before after
  have hafter := scan_eq_follow profile file {} after
  rw [show insideAfter ({} : Scanner).insideComment before = false from hinside, hforget,
    ← hafter.1, ← hafter.2] at happ
  exact ⟨happ.1, finish_append profile file hcode happ.1 happ.2⟩

/-- The method that the first part leaves open, at a depth below zero, does not show in what
the declaration after it gives. -/
theorem scan_append_drops_open_method :
    let before := ["public void f();", "\x7d"].map String.toList
    let after := ["// next", "public void run() \x7b if (a) g(); \x7d"].map String.toList
    (scan ⟨.java, .leading⟩ "A.java" {} before).1.tracker = ⟨some ['f'], -1, 0⟩ ∧
      (scan ⟨.java, .leading⟩ "A.java" {} (before ++ after)).2 =
        [.declaration true, .declaration true, .method ⟨"run", "A.java", 1⟩] ∧
      (scan ⟨.java, .leading⟩ "A.java" {} (before ++ after)).1.finish = ⟨4, 3, 2, 1, false⟩ := by
  intro before after
  have happ := scan_append_of_boundary ⟨.java, .leading⟩ "A.java" before after
    (by decide) (.inr (by decide))
  refine ⟨by decide, ?_, ?_⟩
  · rw [happ.1]
    decide
  · rw [happ.2]
    decide

end Scanner

end MethodSurvey
