import Mathlib.Data.Nat.Find
import MethodSurvey.Proofs.Scan.Boundary
import MethodSurvey.Proofs.Scan.Registers
import MethodSurvey.Proofs.Scan.Schedule

/-! What holds of a scanner after any lines: nothing is left of a method once it is closed, the
counters of an open one count no more than the lines since its declaration, and no line counts
for two methods. -/

namespace MethodSurvey

namespace Extent

variable (profile : Profile) (code : List (List Char))

/-- How many code lines there are from the last declaration on; all of them without one. -/
def sinceDeclaration : Nat :=
  code.length - Nat.findGreatest (fun i => (declared? profile code i).isSome = true) code.length

theorem countBetween_le (p : List Char → Bool) (i j : Nat) : countBetween code p i j ≤ j - i := by
  have hl : ((code.take j).drop i).length ≤ j - i := by
    rw [List.length_drop, List.length_take]
    omega
  exact Nat.le_trans List.countP_le_length hl

variable {profile code}

theorem IsLast.sinceDeclaration_eq {i : Nat} (h : IsLast profile code i) :
    sinceDeclaration profile code = code.length - i := by
  obtain ⟨name, hd⟩ := Option.isSome_iff_exists.mp h.1
  have hi := lt_length_of_declared? profile code hd
  have hg : Nat.findGreatest (fun i => (declared? profile code i).isSome = true) code.length = i :=
    Nat.findGreatest_eq_iff.mpr ⟨by omega, fun _ => h.1, fun k hk _ => by simp [h.2 k hk]⟩
  rw [sinceDeclaration, hg]

/-- Each line since the declaration counts once at most. -/
theorem Tracks.counts_le {t : Tracker} (h : Tracks profile code t) :
    t.depth.natAbs ≤ sinceDeclaration profile code ∧
      t.complexity ≤ sinceDeclaration profile code := by
  cases h with
  | atRest => exact ⟨Nat.zero_le _, Nat.zero_le _⟩
  | @inside i name hd hl hn =>
    have hopening := countBetween_le code (·.contains '{') i code.length
    have hclosing := countBetween_le code (·.contains '}') i code.length
    rw [hl.sinceDeclaration_eq]
    refine ⟨?_, countBetween_le code _ _ _⟩
    simp only [inBody]
    omega

end Extent

namespace Scanner

variable (profile : Profile) (file : String)

theorem length_codeLines_le (inside : Bool) (lines : List (List Char)) :
    (codeLines inside lines).length ≤ lines.length := by
  induction lines generalizing inside with
  | nil => exact Nat.le_refl _
  | cons line lines ih =>
    have hrest := ih (codeLine inside line).2
    have hone : (codeLine inside line).1.toList.length ≤ 1 := by
      cases (codeLine inside line).1 <;> simp
    rw [codeLines, List.length_append, List.length_cons]
    omega

def complexities (events : List Event) : List Nat :=
  (events.filterMap Event.record?).map MethodRecord.complexity

@[simp]
theorem complexities_append (events later : List Event) :
    complexities (events ++ later) = complexities events ++ complexities later := by
  simp [complexities]

theorem complexities_eventsOf (declared : Option (List Char)) (closed : Option (List Char × Nat)) :
    complexities (eventsOf file declared closed) = closed.toList.map Prod.snd := by
  rw [complexities, filterMap_record?_eventsOf]
  cases closed <;> rfl

/-- A line counts for the method that is open on it and for no other one. -/
theorem sum_complexities_follow_le (t : Tracker) (code : List (List Char)) :
    (complexities (follow profile file t code).2).sum + (follow profile file t code).1.complexity ≤
      t.complexity + code.length := by
  induction code generalizing t with
  | nil => simp [follow, complexities]
  | cons line code ih =>
    have hstep := t.complexity_step_le (profile.declaredName? line) line
    have hrest := ih (t.step (profile.declaredName? line) line).1
    rw [← complexities_eventsOf file (profile.declaredName? line)] at hstep
    simp only [follow, complexities_append, List.sum_append, List.length_cons]
    omega

/-- A scanner that some lines have been fed to, their code lines, and the events that came out. -/
structure Reached (code : List (List Char)) (s : Scanner) (events : List Event) : Prop where
  isOpen_iff : s.tracker.isOpen = true ↔ ∃ name, s.tracker.current = some name
  /-- Nothing is left of a method that is not open. -/
  atRest : s.tracker.isOpen = false → s.tracker.depth = 0 ∧ s.tracker.complexity = 0
  depth_le : s.tracker.depth.natAbs ≤ Extent.sinceDeclaration profile code
  complexity_le : s.tracker.complexity ≤ Extent.sinceDeclaration profile code
  declarations_eq : s.stats.declarations = (events.filterMap Event.conforming?).length
  methods_eq : s.stats.methods = (events.filterMap Event.record?).length
  methods_le : s.stats.methods + s.tracker.openCount ≤ s.stats.declarations
  complexities_le : (complexities events).sum + s.tracker.complexity ≤ s.stats.codeLines
  codeLines_le : s.stats.codeLines ≤ s.stats.lines

theorem reached_scan (lines : List (List Char)) :
    Reached profile (codeLines false lines) (scan profile file {} lines).1
      (scan profile file {} lines).2 := by
  have htracks := (Extent.scan_eq_schedule profile file lines).1
  have hstats := stats_scan profile file {} lines
  simp only [addCounts, Nat.zero_add] at hstats
  refine
    { isOpen_iff := Option.isSome_iff_exists
      atRest := fun hclosed => ?_
      depth_le := htracks.counts_le.1
      complexity_le := htracks.counts_le.2
      declarations_eq := by rw [hstats]
      methods_eq := by rw [hstats]
      methods_le := ?_
      complexities_le := ?_
      codeLines_le := ?_ }
  · rw [tracker_scan_of_not_isOpen profile file hclosed]
    exact ⟨rfl, rfl⟩
  · have hopen := openCount_scan profile file {} lines
    have hnone : ({} : Scanner).tracker.openCount = 0 := rfl
    rw [hstats]
    dsimp only
    omega
  · have hfollow := scan_eq_follow profile file {} lines
    have hcount := sum_complexities_follow_le profile file {} (codeLines false lines)
    rw [← hfollow.1, ← hfollow.2, Nat.zero_add] at hcount
    rw [hstats]
    exact hcount
  · rw [hstats]
    exact length_codeLines_le false lines

/-- A scanner keeps its invariant over any lines. In machine words, where the flag and the name of
the open method are kept apart, the scan goes the same way until a counter overflows, and each
closing gives out one method; fewer than `2 ^ 63` lines overflow none. -/
theorem scan_keeps_invariant (profile : Profile) (file : String) (lines : List (List Char)) :
    let code := codeLines false lines
    let result := scan profile file {} lines
    Reached profile code result.1 result.2 ∧
      (∀ r given, Registers.follow? profile {} code = some (r, given) →
        r.Shows result.1.tracker ∧ given.map (Option.map (Registers.toRecord file)) =
          (result.2.filterMap Event.record?).map some) ∧
      (lines.length < 2 ^ 63 → ∃ r given, Registers.follow? profile {} code = some (r, given)) := by
  have hfollow := scan_eq_follow profile file {} lines
  refine ⟨reached_scan profile file lines, fun r given h => ?_, fun h => ?_⟩
  · rw [hfollow.1, hfollow.2]
    exact Registers.shows_start.follow? file h
  · have hlines := length_codeLines_le false lines
    have hfits : 0 + (codeLines false lines).length < 2 ^ 63 := by omega
    exact Registers.shows_start.exists_follow? hfits hfits

/-- A method that is dropped at a depth below zero, one that is closed by the first of two braces,
and one that is left open. -/
theorem scan_keeps_invariant_of_dropped :
    let lines := ["public void a();", "\x7d", "public int b() \x7b if (x)", "// \x7d", "\x7d \x7d",
      "private int c() = while", "\x7d"].map String.toList
    lines.length < 2 ^ 63 ∧
      (scan ⟨.java, .leading⟩ "A.java" {} lines).1.tracker = ⟨some ['c'], -1, 1⟩ ∧
      ∃ r given, Registers.follow? ⟨.java, .leading⟩ {} (codeLines false lines) = some (r, given) ∧
        r.isOpen = true ∧ r.depth.toInt = -1 ∧ r.complexity.toNat = 1 ∧
        given.map (Option.map (Registers.toRecord "A.java")) = [some ⟨"b", "A.java", 1⟩] := by
  intro lines
  have hlines : lines.length < 2 ^ 63 := by decide
  have htracker : (scan ⟨.java, .leading⟩ "A.java" {} lines).1.tracker = ⟨some ['c'], -1, 1⟩ := by
    decide
  obtain ⟨-, hshows, hfits⟩ := scan_keeps_invariant ⟨.java, .leading⟩ "A.java" lines
  obtain ⟨r, given, hr⟩ := hfits hlines
  obtain ⟨hs, hgiven⟩ := hshows r given hr
  have hopen := hs.isOpen
  have hdepth := hs.depth_eq
  have hcomplexity := hs.complexity_eq
  rw [htracker] at hopen hdepth hcomplexity
  exact ⟨hlines, htracker, r, given, hr, hopen, hdepth, hcomplexity, hgiven.trans (by decide)⟩

end Scanner

end MethodSurvey
