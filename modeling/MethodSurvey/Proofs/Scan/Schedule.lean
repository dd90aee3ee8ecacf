import Mathlib.Data.List.Induction
import MethodSurvey.Proofs.Scan.CodeLines
import MethodSurvey.Proofs.Scan.Extent

/-! The events of a scan, read off the extents of the declared methods. -/

namespace MethodSurvey.Extent

variable (profile : Profile) (code : List (List Char)) (file : String)

/-- The method of the declaration on line `i`, given out on line `j` if its body ends there. -/
def closedOn? (j i : Nat) : Option (List Char × Nat) :=
  if closing? profile code i = some j then
    (declared? profile code i).map fun name => (name, complexity code i j)
  else none

/-- The events of line `j`: its declaration, and the methods whose bodies end there. -/
def eventsOn (j : Nat) : List Event :=
  ((declared? profile code j).map fun name => Event.declaration (conforms name)).toList ++
    ((List.range code.length).filterMap (closedOn? profile code j)).map fun (name, complexity) =>
      Event.method ⟨String.ofList name, file, complexity⟩

def schedule : List (List Event) :=
  (List.range code.length).map (eventsOn profile code file)

theorem closedOn?_eq_none_of_lt {i j : Nat} (h : j < i) : closedOn? profile code j i = none := by
  have hc : closing? profile code i ≠ some j := fun hc =>
    absurd ((closing?_eq_some_iff profile code).mp hc).1 (by omega)
  simp [closedOn?, hc]

theorem closedOn?_append (rest : List (List Char)) {i j : Nat} (hj : j < code.length) :
    closedOn? profile (code ++ rest) j i = closedOn? profile code j i := by
  by_cases hc : closing? profile code i = some j
  · have hi : i < code.length := by
      have := ((closing?_eq_some_iff profile code).mp hc).1
      omega
    simp [closedOn?, hc, (closing?_append profile code rest i hj).mpr hc,
      declared?_append profile code rest hi, complexity_append code rest i hj]
  · simp [closedOn?, hc, (closing?_append profile code rest i hj).not.mpr hc]

theorem eventsOn_append (rest : List (List Char)) {j : Nat} (hj : j < code.length) :
    eventsOn profile (code ++ rest) file j = eventsOn profile code file j := by
  have hc : closedOn? profile (code ++ rest) j = closedOn? profile code j :=
    funext fun _ => closedOn?_append profile code rest hj
  have hlate :
      ((List.range rest.length).map (code.length + ·)).filterMap (closedOn? profile code j) = [] := by
    simp only [List.filterMap_eq_nil_iff, List.mem_map]
    rintro _ ⟨k, _, rfl⟩
    exact closedOn?_eq_none_of_lt profile code (by omega)
  rw [eventsOn, eventsOn, declared?_append profile code rest hj, hc, List.length_append,
    List.range_add, List.filterMap_append, hlate, List.append_nil]

theorem schedule_append (rest : List (List Char)) :
    schedule profile (code ++ rest) file = schedule profile code file ++
      (List.range rest.length).map fun k => eventsOn profile (code ++ rest) file (code.length + k) := by
  have hc : (List.range code.length).map (eventsOn profile (code ++ rest) file) =
      schedule profile code file :=
    List.map_congr_left fun j hj => eventsOn_append profile code file rest (List.mem_range.mp hj)
  rw [schedule, List.length_append, List.range_add, List.map_append, hc, List.map_map]
  rfl

theorem take_schedule {before : List (List Char)} (h : before <+: code) :
    (schedule profile code file).take before.length = schedule profile before file := by
  obtain ⟨rest, rfl⟩ := h
  rw [schedule_append]
  exact List.take_left' (by simp [schedule])

theorem IsLast.eq {i j : Nat} (hi : IsLast profile code i) (hj : IsLast profile code j) : i = j := by
  rcases Nat.lt_trichotomy i j with h | h | h
  · exact absurd hj.1 (by simp [hi.2 j h])
  · exact h
  · exact absurd hi.1 (by simp [hj.2 i h])

theorem closedOn?_eq_none_of_not_isLast {i j : Nat} (hj : code.length ≤ j + 1)
    (h : ¬ IsLast profile code i) : closedOn? profile code j i = none := by
  by_cases hc : closing? profile code i = some j
  · have hd : declared? profile code i = none := by
      by_contra hd
      refine h ⟨Option.ne_none_iff_isSome.mp hd, fun k hk => ?_⟩
      by_cases hkj : k ≤ j
      · exact ((closing?_eq_some_iff profile code).mp hc).2.2.1 k hk hkj
      · exact declared?_of_length_le profile code (by omega)
    simp [closedOn?, hd]
  · simp [closedOn?, hc]

theorem filterMap_range_of_unique {α : Type} {f : Nat → Option α} {n i : Nat} (hi : i < n)
    (h : ∀ k, k ≠ i → f k = none) : (List.range n).filterMap f = (f i).toList := by
  induction n with
  | zero => omega
  | succ n ih =>
    rw [List.range_succ, List.filterMap_append]
    by_cases he : i = n
    · subst i
      have hz : (List.range n).filterMap f = [] := by
        simp only [List.filterMap_eq_nil_iff, List.mem_range]
        exact fun k hk => h k (by omega)
      cases hf : f n <;> simp [hz, hf]
    · rw [ih (by omega)]
      simp [h n (Ne.symm he)]

def inBody (i : Nat) (name : List Char) : Tracker where
  current := some name
  depth := countBetween code (·.contains '{') i code.length -
    countBetween code (·.contains '}') i code.length
  complexity := countBetween code hasControlKeyword i code.length

/-- The tracker after the code lines: at rest if the body of the last declaration has
ended or if there is none, otherwise inside that body. -/
inductive Tracks : Tracker → Prop
  | atRest (h : ∀ i, IsLast profile code i → closing? profile code i ≠ none) : Tracks {}
  | inside {i : Nat} {name : List Char} (hd : declared? profile code i = some name)
      (hl : IsLast profile code i) (hn : closing? profile code i = none) : Tracks (inBody code i name)

theorem inBody_declaration (name : List Char) :
    inBody code code.length name = Tracker.declare name := by
  simp [inBody, countBetween, Tracker.declare]

theorem countBetween_snoc (p : List Char → Bool) (line : List Char) {i : Nat}
    (hi : i ≤ code.length) :
    countBetween (code ++ [line]) p i (code.length + 1) =
      countBetween code p i code.length + if p line then 1 else 0 := by
  rw [countBetween_succ _ hi List.getElem?_concat_length,
    countBetween_append code [line] p i (Nat.le_refl _)]

theorem depthAt_snoc (line name : List Char) {i : Nat} (hi : i ≤ code.length) :
    depthAt (code ++ [line]) i code.length = ((inBody code i name).enter line).depth := by
  simp only [depthAt, countBetween_snoc code _ line hi,
    countBetween_append code [line] _ i (Nat.le_refl _), Tracker.depth_enter, inBody]
  split <;> omega

theorem complexity_snoc (line name : List Char) {i : Nat} (hi : i ≤ code.length) :
    complexity (code ++ [line]) i code.length = ((inBody code i name).enter line).complexity := by
  simp only [complexity, countBetween_snoc code _ line hi, Tracker.complexity_enter, inBody]

theorem closesAt_snoc_iff (line name : List Char) {i : Nat} (hi : i ≤ code.length) :
    closesAt (code ++ [line]) i code.length = true ↔
      line.contains '}' = true ∧ ((inBody code i name).enter line).depth = 1 := by
  rw [closesAt, depthAt_snoc code line name hi, List.getElem?_concat_length, Option.any_some,
    Bool.and_eq_true, decide_eq_true_iff]

theorem inBody_snoc (line name : List Char) {i : Nat} (hi : i ≤ code.length) :
    inBody (code ++ [line]) i name =
      { (inBody code i name).enter line with
        depth := ((inBody code i name).enter line).depth - if line.contains '}' then 1 else 0 } := by
  simp only [inBody, List.length_append, List.length_singleton, countBetween_snoc code _ line hi,
    Tracker.mk.injEq, Tracker.depth_enter, Tracker.complexity_enter, Tracker.current_enter,
    true_and, and_true]
  split <;> split <;> omega

/-- One more line in a body: it ends the body, or the tracker stays inside. -/
theorem leave_enter_inBody (line name : List Char) {i : Nat} (hi : i ≤ code.length) :
    ((inBody code i name).enter line).leave line =
      if closesAt (code ++ [line]) i code.length then
        ({}, some (name, complexity (code ++ [line]) i code.length))
      else (inBody (code ++ [line]) i name, none) := by
  have hc := closesAt_snoc_iff code line name hi
  by_cases h : closesAt (code ++ [line]) i code.length = true
  · rw [if_pos h, Tracker.leave_of_closing (hc.mp h).1 (hc.mp h).2,
      complexity_snoc code line name hi]
    rfl
  · rw [if_neg h, Tracker.leave_of_not_closing (hc.not.mp h), inBody_snoc code line name hi]

variable {profile code}

theorem closesAt_eq_false_of_isLast {i : Nat} (hl : IsLast profile code i)
    (hn : closing? profile code i = none) {k : Nat} (hik : i ≤ k) (hk : k < code.length) :
    closesAt code i k = false :=
  (closing?_eq_none_iff profile code).mp hn k hik hk fun k' hk' _ => hl.2 k' hk'

theorem tracks_leave_enter {line name : List Char} {i : Nat} (hi : i ≤ code.length)
    (hd : declared? profile (code ++ [line]) i = some name) (hl : IsLast profile (code ++ [line]) i)
    (hn : ∀ k, i ≤ k → k < code.length → closesAt code i k = false) :
    Tracks profile (code ++ [line]) (((inBody code i name).enter line).leave line).1 ∧
      (((inBody code i name).enter line).leave line).2.toList =
        (List.range (code ++ [line]).length).filterMap
          (closedOn? profile (code ++ [line]) code.length) := by
  have hlen : (code ++ [line]).length = code.length + 1 := by simp
  have hbefore : ∀ k, i ≤ k → k < code.length → closesAt (code ++ [line]) i k = false := by
    intro k hik hk
    rw [closesAt_append code [line] i hk]
    exact hn k hik hk
  have hother : ∀ k, k ≠ i → closedOn? profile (code ++ [line]) code.length k = none := by
    intro k hk
    exact closedOn?_eq_none_of_not_isLast profile _ (by omega)
      fun hlk => hk (IsLast.eq profile _ hlk hl)
  rw [leave_enter_inBody code line name hi, filterMap_range_of_unique (by omega) hother]
  by_cases hc : closesAt (code ++ [line]) i code.length = true
  · have hcl : closing? profile (code ++ [line]) i = some code.length :=
      (closing?_eq_some_iff profile _).mpr ⟨hi, by omega, fun k hk _ => hl.2 k hk, hc, hbefore⟩
    rw [if_pos hc]
    refine ⟨.atRest fun k hk => ?_, by simp [closedOn?, hcl, hd]⟩
    rw [IsLast.eq profile _ hk hl, hcl]
    simp
  · have hcl : closing? profile (code ++ [line]) i = none := by
      refine (closing?_eq_none_iff profile _).mpr fun k hik hk _ => ?_
      by_cases he : k = code.length
      · simpa [he] using hc
      · exact hbefore k hik (by omega)
    rw [if_neg hc]
    exact ⟨.inside hd hl hcl, by simp [closedOn?, hcl]⟩

theorem isLast_of_isLast_append {line : List Char} (hline : profile.declaredName? line = none)
    {i : Nat} (hl : IsLast profile (code ++ [line]) i) : IsLast profile code i := by
  have hi : i < code.length := by
    by_contra hi
    obtain ⟨name, hd⟩ := Option.isSome_iff_exists.mp hl.1
    have hlt := lt_length_of_declared? profile _ hd
    obtain rfl : i = code.length := by simp at hlt; omega
    simp [declared?, hline] at hd
  refine ⟨by simpa [declared?_append profile code [line] hi] using hl.1, fun k hk => ?_⟩
  by_cases hkl : k < code.length
  · rw [← declared?_append profile code [line] hkl]
    exact hl.2 k hk
  · exact declared?_of_length_le profile code (by omega)

theorem isLast_append_of_isLast {line : List Char} (hline : profile.declaredName? line = none)
    {i : Nat} (hl : IsLast profile code i) : IsLast profile (code ++ [line]) i := by
  obtain ⟨name, hd⟩ := Option.isSome_iff_exists.mp hl.1
  have hi := lt_length_of_declared? profile code hd
  refine ⟨by simp [declared?_append profile code [line] hi, hd], fun k hk => ?_⟩
  rcases Nat.lt_trichotomy k code.length with hkl | rfl | hkl
  · rw [declared?_append profile code [line] hkl]
    exact hl.2 k hk
  · simp [declared?, hline]
  · exact declared?_of_length_le profile _ (by simp; omega)

theorem Tracks.step {t : Tracker} (h : Tracks profile code t) (line : List Char) :
    Tracks profile (code ++ [line]) (t.step (profile.declaredName? line) line).1 ∧
      (t.step (profile.declaredName? line) line).2.toList =
        (List.range (code ++ [line]).length).filterMap
          (closedOn? profile (code ++ [line]) code.length) := by
  cases hline : profile.declaredName? line with
  | some name =>
    have hd : declared? profile (code ++ [line]) code.length = some name := by
      simp [declared?, hline]
    have hl : IsLast profile (code ++ [line]) code.length :=
      ⟨by simp [hd], fun k hk => declared?_of_length_le profile _ (by simp; omega)⟩
    have hs := tracks_leave_enter (Nat.le_refl _) hd hl fun k hk hk' => absurd hk' (by omega)
    rw [inBody_declaration] at hs
    exact hs
  | none =>
    cases h with
    | inside hd hl hn =>
      have hi := lt_length_of_declared? profile code hd
      exact tracks_leave_enter (by omega) (by rw [declared?_append profile code [line] hi, hd])
        (isLast_append_of_isLast hline hl)
        fun k hik hk => closesAt_eq_false_of_isLast hl hn hik hk
    | atRest hr =>
      have hclosed : ∀ i, IsLast profile (code ++ [line]) i →
          ∃ j, j < code.length ∧ closing? profile (code ++ [line]) i = some j := by
        intro i hl
        obtain ⟨j, hj⟩ := Option.ne_none_iff_exists'.mp (hr i (isLast_of_isLast_append hline hl))
        have hjl := ((closing?_eq_some_iff profile code).mp hj).2.1
        exact ⟨j, hjl, (closing?_append profile code [line] i hjl).mpr hj⟩
      constructor
      · refine .atRest fun i hl => ?_
        obtain ⟨j, _, hj⟩ := hclosed i hl
        simp [hj]
      · refine (List.filterMap_eq_nil_iff.mpr fun i _ => ?_).symm
        by_cases hl : IsLast profile (code ++ [line]) i
        · obtain ⟨j, hjl, hj⟩ := hclosed i hl
          simp [closedOn?, hj, (show j ≠ code.length by omega)]
        · exact closedOn?_eq_none_of_not_isLast profile _ (by simp) hl

theorem eventsOf_eq_eventsOn {line : List Char} {closed : Option (List Char × Nat)}
    (h : closed.toList = (List.range (code ++ [line]).length).filterMap
      (closedOn? profile (code ++ [line]) code.length)) :
    Scanner.eventsOf file (profile.declaredName? line) closed =
      eventsOn profile (code ++ [line]) file code.length := by
  rw [Scanner.eventsOf, eventsOn, ← h, declared?, List.getElem?_concat_length]
  cases closed <;> rfl

theorem follow_eq_schedule (profile : Profile) (file : String) (code : List (List Char)) :
    Tracks profile code (Scanner.follow profile file {} code).1 ∧
      (Scanner.follow profile file {} code).2 = (schedule profile code file).flatten := by
  induction code using List.reverseRecOn with
  | nil => exact ⟨.atRest fun i hl => by simp [IsLast, declared?] at hl, rfl⟩
  | append_singleton code line ih =>
    have hs := ih.1.step line
    have he := eventsOf_eq_eventsOn file hs.2
    rw [Scanner.follow_append, schedule_append, ih.2]
    refine ⟨hs.1, ?_⟩
    simp [Scanner.follow, he]

theorem Tracks.isOpen_iff {t : Tracker} (h : Tracks profile code t) :
    t.isOpen = true ↔ ∃ i, IsLast profile code i ∧ closing? profile code i = none := by
  cases h with
  | atRest hr =>
    exact ⟨fun ho => by simp [Tracker.isOpen] at ho, fun ⟨i, hl, hn⟩ => absurd hn (hr i hl)⟩
  | inside hd hl hn => exact ⟨fun _ => ⟨_, hl, hn⟩, fun _ => rfl⟩

theorem scan_eq_schedule (profile : Profile) (file : String) (lines : List (List Char)) :
    Tracks profile (Scanner.codeLines false lines) (Scanner.scan profile file {} lines).1.tracker ∧
      (Scanner.scan profile file {} lines).2 =
        (schedule profile (Scanner.codeLines false lines) file).flatten := by
  have hs := Scanner.scan_eq_follow profile file {} lines
  rw [hs.1, hs.2]
  exact follow_eq_schedule profile file (Scanner.codeLines false lines)

/-- The scan of any lines gives out, line by line, what the extents of the declared methods
say: after the first `p` lines it has given out the events of the code lines among them. A
method is open at the end if the last declaration is there and nothing closes it. -/
theorem scan_meets_extents (profile : Profile) (file : String) (lines : List (List Char)) :
    let code := Scanner.codeLines false lines
    (Scanner.scan profile file {} lines).2 = (schedule profile code file).flatten ∧
      (∀ p, (Scanner.scan profile file {} (lines.take p)).2 =
        ((schedule profile code file).take (Scanner.codeLines false (lines.take p)).length).flatten) ∧
      ((Scanner.scan profile file {} lines).1.finish.unclosed = true ↔
        ∃ i, IsLast profile code i ∧ closing? profile code i = none) := by
  refine ⟨(scan_eq_schedule profile file lines).2, fun p => ?_,
    (scan_eq_schedule profile file lines).1.isOpen_iff⟩
  rw [take_schedule profile _ file (Scanner.codeLines_take false lines p)]
  exact (scan_eq_schedule profile file (lines.take p)).2

end MethodSurvey.Extent
