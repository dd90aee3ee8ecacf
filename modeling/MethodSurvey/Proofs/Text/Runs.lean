import Mathlib.Data.List.Basic
import Mathlib.Data.List.TakeWhile
import MethodSurvey.Text.Blank
import MethodSurvey.Text.WordCharacter

/-! Runs of characters of one class. A run is told from what follows it by the first
character after it; blanks, word characters and parentheses keep each other apart. -/

namespace MethodSurvey.Text

/-- The text does not go on with a character of the class. -/
def Stops (p : Char → Bool) (rest : List Char) : Prop :=
  ∀ c ∈ rest.head?, p c = false

variable {p q : Char → Bool} {c : Char} {run s rest : List Char}

theorem stops_nil : Stops p [] := by
  simp [Stops]

theorem stops_cons (h : p c = false) : Stops p (c :: s) := by
  simpa [Stops] using h

theorem Stops.mono (h : Stops q rest) (hpq : ∀ c, p c = true → q c = true) : Stops p rest := by
  intro c hc
  by_contra hp
  exact Bool.false_ne_true ((h c hc).symm.trans (hpq c (Bool.not_eq_false _ ▸ hp)))

theorem stops_dropWhile : Stops p (s.dropWhile p) := by
  intro c hc
  have h := List.head?_dropWhile_not p s
  rw [Option.mem_def.mp hc] at h
  exact h

/-- Classes that are apart stop each other. -/
theorem stops_append (hpq : ∀ c, q c = true → p c = false) (hrun : ∀ c ∈ run, q c = true)
    (hrest : Stops p rest) : Stops p (run ++ rest) := by
  cases run with
  | nil => exact hrest
  | cons c run => exact stops_cons (hpq c (hrun c List.mem_cons_self))

theorem takeWhile_eq_nil_of_stops (h : Stops p rest) : rest.takeWhile p = [] := by
  cases rest with
  | nil => rfl
  | cons c rest =>
    have hc : p c = false := h c rfl
    exact List.takeWhile_cons_of_neg (by simp [hc])

theorem dropWhile_eq_self_of_stops (h : Stops p rest) : rest.dropWhile p = rest := by
  cases rest with
  | nil => rfl
  | cons c rest =>
    have hc : p c = false := h c rfl
    exact List.dropWhile_cons_of_neg (by simp [hc])

theorem takeWhile_run (hrun : ∀ c ∈ run, p c = true) (hrest : Stops p rest) :
    (run ++ rest).takeWhile p = run := by
  rw [List.takeWhile_append_of_pos hrun, takeWhile_eq_nil_of_stops hrest, List.append_nil]

theorem dropWhile_run (hrun : ∀ c ∈ run, p c = true) (hrest : Stops p rest) :
    (run ++ rest).dropWhile p = rest := by
  rw [List.dropWhile_append_of_pos hrun, dropWhile_eq_self_of_stops hrest]

/-- A run and what stops it are parts of the text in one way only. -/
theorem append_inj_of_stops {run' rest' : List Char} (h : run ++ rest = run' ++ rest')
    (hrun : ∀ c ∈ run, p c = true) (hrest : Stops p rest)
    (hrun' : ∀ c ∈ run', p c = true) (hrest' : Stops p rest') : run = run' ∧ rest = rest' := by
  have htake := congrArg (List.takeWhile p) h
  have hdrop := congrArg (List.dropWhile p) h
  rw [takeWhile_run hrun hrest, takeWhile_run hrun' hrest'] at htake
  rw [dropWhile_run hrun hrest, dropWhile_run hrun' hrest'] at hdrop
  exact ⟨htake, hdrop⟩

theorem toNat_of_isAsciiWord (h : isAsciiWord c = true) :
    (48 ≤ c.toNat ∧ c.toNat ≤ 57) ∨ (65 ≤ c.toNat ∧ c.toNat ≤ 90) ∨
      (95 ≤ c.toNat ∧ c.toNat ≤ 122) := by
  rcases (Bool.or_eq_true _ _).mp h with halphanum | hunderscore
  · rcases (Bool.or_eq_true _ _).mp halphanum with halpha | hdigit
    · rcases (Bool.or_eq_true _ _).mp halpha with hupper | hlower
      · exact .inr (.inl (of_decide_eq_true hupper))
      · obtain ⟨hlow, hhigh⟩ := (Bool.and_eq_true _ _).mp hlower
        have hlow' : 97 ≤ c.toNat := of_decide_eq_true hlow
        exact .inr (.inr ⟨by omega, of_decide_eq_true hhigh⟩)
    · obtain ⟨hlow, hhigh⟩ := (Bool.and_eq_true _ _).mp hdigit
      exact .inl ⟨of_decide_eq_true hlow, of_decide_eq_true hhigh⟩
  · obtain rfl : c = '_' := beq_iff_eq.mp hunderscore
    decide

theorem isBlank_eq_false_of_isAsciiWord (h : isAsciiWord c = true) : isBlank c = false := by
  have hc := toNat_of_isAsciiWord h
  simp only [isBlank, inRanges, blankRanges, List.any_cons, List.any_nil, Bool.or_false,
    Bool.or_eq_false_iff, Bool.and_eq_false_iff, decide_eq_false_iff_not]
  omega

theorem isAsciiWord_eq_false_of_isBlank (h : isBlank c = true) : isAsciiWord c = false := by
  by_contra hw
  rw [isBlank_eq_false_of_isAsciiWord (Bool.not_eq_false _ ▸ hw)] at h
  exact Bool.false_ne_true h

theorem stops_isBlank_word (hne : run ≠ []) (hrun : ∀ c ∈ run, isAsciiWord c = true) :
    Stops isBlank (run ++ rest) := by
  obtain ⟨c, run, rfl⟩ := List.exists_cons_of_ne_nil hne
  exact stops_cons (isBlank_eq_false_of_isAsciiWord (hrun c List.mem_cons_self))

theorem stops_isAsciiWord_gap (hne : run ≠ []) (hrun : ∀ c ∈ run, isBlank c = true) :
    Stops isAsciiWord (run ++ rest) := by
  obtain ⟨c, run, rfl⟩ := List.exists_cons_of_ne_nil hne
  exact stops_cons (isAsciiWord_eq_false_of_isBlank (hrun c List.mem_cons_self))

/-- Characters in ranges that are apart are different. -/
theorem inRanges_eq_false_of_apart {ranges ranges' : List (Nat × Nat)}
    (hapart : ∀ r ∈ ranges, ∀ r' ∈ ranges', r.2 < r'.1 ∨ r'.2 < r.1) {n : Nat}
    (h : inRanges ranges n = true) : inRanges ranges' n = false := by
  obtain ⟨r, hr, hn⟩ := List.any_eq_true.mp h
  obtain ⟨hlow, hhigh⟩ := (Bool.and_eq_true _ _).mp hn
  refine List.any_eq_false.mpr fun r' hr' hn' => ?_
  obtain ⟨hlow', hhigh'⟩ := (Bool.and_eq_true _ _).mp hn'
  have hle := of_decide_eq_true hlow
  have hle' := of_decide_eq_true hhigh
  have hge := of_decide_eq_true hlow'
  have hge' := of_decide_eq_true hhigh'
  rcases hapart r hr r' hr' with hlt | hlt <;> omega

theorem isWordCharacter_eq_false_of_isBlank (h : isBlank c = true) : isWordCharacter c = false := by
  have hapart : ∀ r ∈ blankRanges, ∀ r' ∈ wordRanges, r.2 < r'.1 ∨ r'.2 < r.1 := by
    decide +kernel
  exact inRanges_eq_false_of_apart hapart h

/-- A blank ends a word. -/
theorem endsWord_gap (hne : run ≠ []) (hrun : ∀ c ∈ run, isBlank c = true) :
    endsWord (run ++ rest) = true := by
  obtain ⟨c, run, rfl⟩ := List.exists_cons_of_ne_nil hne
  have hc := isWordCharacter_eq_false_of_isBlank (hrun c List.mem_cons_self)
  rw [List.cons_append, endsWord, hc, Bool.not_false]

theorem paren_not_mem_of_isBlank (h : ∀ c ∈ run, isBlank c = true) : '(' ∉ run :=
  fun hc => absurd (h _ hc) (by decide)

theorem paren_not_mem_of_isAsciiWord (h : ∀ c ∈ run, isAsciiWord c = true) : '(' ∉ run :=
  fun hc => absurd (h _ hc) (by decide)

/-- What ends in blanks ends in no word. -/
theorem eq_nil_of_append_eq_append {gap t word : List Char} (h : s ++ gap = t ++ word)
    (hgap : ∀ c ∈ gap, p c = true) (hne : word ≠ []) (hword : ∀ c ∈ word, p c = false) :
    gap = [] := by
  by_contra hg
  have hlast := congrArg List.getLast? h
  rw [List.getLast?_append_of_ne_nil _ hg, List.getLast?_append_of_ne_nil _ hne,
    List.getLast?_eq_some_getLast hg, List.getLast?_eq_some_getLast hne, Option.some.injEq] at hlast
  have hblank := hgap _ (List.getLast_mem hg)
  rw [hlast, hword _ (List.getLast_mem hne)] at hblank
  exact Bool.false_ne_true hblank

end MethodSurvey.Text
