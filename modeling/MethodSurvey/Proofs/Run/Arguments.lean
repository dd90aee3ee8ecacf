import MethodSurvey.CommandLine

/-! What a command line can come to. Whatever its arguments, a reading changes what it has
gathered by filling one slot or raising one flag at a time. -/

namespace MethodSurvey.CommandLine

theorem bind_eq_ok_iff {ε α β : Type} {x : Except ε α} {f : α → Except ε β} {b : β} :
    x >>= f = .ok b ↔ ∃ a, x = .ok a ∧ f a = .ok b := by
  cases x with
  | error e =>
    refine iff_of_false (fun h => by cases h) ?_
    rintro ⟨a, ha, -⟩
    cases ha
  | ok a =>
    constructor
    · exact fun h => ⟨a, rfl, h⟩
    · rintro ⟨a', ha, h⟩
      cases ha
      exact h

theorem foldlM_induction {ε α β : Type} {step : β → α → Except ε β} {P : β → Prop}
    (hstep : ∀ s a s', P s → step s a = .ok s' → P s') {args : List α} {s s' : β} (hs : P s)
    (h : args.foldlM step s = .ok s') : P s' := by
  induction args generalizing s with
  | nil =>
    cases h
    exact hs
  | cons a args ih =>
    rw [List.foldlM_cons, bind_eq_ok_iff] at h
    obtain ⟨next, hnext, hrest⟩ := h
    exact ih (hstep s a next hs hnext) hrest

/-- Arguments that a reading can have gathered. -/
inductive Gathered : Arguments → Prop
  | nothing : Gathered {}
  | fill {a b : Arguments} {slot : Slot} {value : Option Argument} (h : Gathered a)
    (hfill : a.fill slot value = .ok b) : Gathered b
  | raise {a b : Arguments} {flag : Flag} (h : Gathered a)
    (hraise : a.raise flag = .ok b) : Gathered b

namespace Reading

variable {r r' : Reading}

theorem gathered_settle (h : Gathered r.arguments) (hr : r.settle = .ok r') :
    Gathered r'.arguments := by
  rw [settle] at hr
  split at hr
  · cases hr
    exact h
  · obtain ⟨a, hfill, hr⟩ := bind_eq_ok_iff.mp hr
    cases hr
    exact h.fill hfill

theorem gathered_flag {f : Flag} (h : Gathered r.arguments) (hr : r.flag f = .ok r') :
    Gathered r'.arguments := by
  obtain ⟨settled, hsettle, hr⟩ := bind_eq_ok_iff.mp hr
  obtain ⟨a, hraise, hr⟩ := bind_eq_ok_iff.mp hr
  cases hr
  exact (gathered_settle h hsettle).raise hraise

theorem gathered_option {name : String} {attached : Option Argument} (h : Gathered r.arguments)
    (hr : r.option name attached = .ok r') : Gathered r'.arguments := by
  rw [option] at hr
  split at hr
  · obtain ⟨settled, hsettle, hr⟩ := bind_eq_ok_iff.mp hr
    have hs := gathered_settle h hsettle
    split at hr
    · refine gathered_settle ?_ hr
      exact hs
    · cases hr
      exact hs
  · split at hr
    · cases hr
    · exact gathered_flag h hr
  · cases hr

theorem gathered_cluster {letters : List Char} (h : Gathered r.arguments)
    (hr : r.cluster letters = .ok r') : Gathered r'.arguments := by
  refine foldlM_induction (P := fun r => Gathered r.arguments) ?_ h hr
  intro s c s' hs hc
  split at hc
  · exact gathered_flag hs hc
  · cases hc

theorem gathered_directory {value : Argument} (h : Gathered r.arguments)
    (hr : r.directory value = .ok r') : Gathered r'.arguments := by
  rw [directory] at hr
  split at hr
  · cases hr
  · obtain ⟨settled, hsettle, hr⟩ := bind_eq_ok_iff.mp hr
    cases hr
    have hs := gathered_settle h hsettle
    exact hs

theorem gathered_value {argument : Argument} (h : Gathered r.arguments)
    (hr : r.value argument = .ok r') : Gathered r'.arguments := by
  rw [value] at hr
  split at hr
  · cases hr
    exact h
  · exact gathered_directory h hr

theorem gathered_step {argument : Argument} (h : Gathered r.arguments)
    (hr : r.step argument = .ok r') : Gathered r'.arguments := by
  rw [step] at hr
  split at hr
  · exact gathered_directory h hr
  · split at hr
    · cases hr
      exact h
    · simp only at hr
      split at hr
      · exact gathered_option h hr
      · exact gathered_option h hr
    · exact gathered_cluster h hr
    · exact gathered_value h hr

end Reading

theorem gathered_of_read {arguments : List Argument} {a : Arguments}
    (h : read arguments = .ok a) : Gathered a := by
  obtain ⟨r, hsteps, h⟩ := bind_eq_ok_iff.mp h
  obtain ⟨settled, hsettle, h⟩ := bind_eq_ok_iff.mp h
  cases h
  have hr : Gathered r.arguments := foldlM_induction (P := fun r => Gathered r.arguments)
    (fun s argument s' => Reading.gathered_step) .nothing hsteps
  exact Reading.gathered_settle hr hsettle

theorem pos_of_readLength? {value : String} {n : Nat} (h : readLength? value = some n) : 1 ≤ n := by
  rw [readLength?] at h
  split at h <;>
  · obtain ⟨m, -, h⟩ := Option.bind_eq_some_iff.mp h
    obtain ⟨⟨hm, -⟩, hn⟩ := Option.ite_none_right_eq_some.mp h
    cases hn
    exact hm

/-- Only the slot for it sets the length of the ranking, and no zero gets there. -/
theorem Arguments.top?_of_put {a b : Arguments} {slot : Slot} {value : Argument}
    (h : a.put slot value = .ok b) :
    b.preferences.top? = a.preferences.top? ∨
      ∃ n, readLength? value.text = some n ∧ b.preferences.top? = some n := by
  cases slot with
  | top =>
    rw [put] at h
    split at h
    next n hn =>
      cases h
      exact .inr ⟨n, hn, rfl⟩
    next => cases h
  | directory | config | format | declarations | keying =>
    obtain ⟨x, -, h⟩ := bind_eq_ok_iff.mp h
    cases h
    exact .inl rfl

theorem Gathered.top?_ne_zero {a : Arguments} (h : Gathered a) : a.preferences.top? ≠ some 0 := by
  induction h with
  | nothing => simp
  | @fill a b slot value _ hfill ih =>
    rw [Arguments.fill.eq_def] at hfill
    split at hfill
    · cases hfill
    · split at hfill
      · cases hfill
      · rcases Arguments.top?_of_put hfill with htop | ⟨n, hn, htop⟩
        · rwa [htop]
        · have hpos := pos_of_readLength? hn
          rw [htop, ne_eq, Option.some.injEq]
          omega
  | @raise a b flag _ hraise ih =>
    cases flag with
    | verbose =>
      cases hraise
      exact ih
    | help | version => cases hraise

end MethodSurvey.CommandLine
