import Mathlib.Algebra.Ring.Int.Defs
import Mathlib.Algebra.Ring.Nat
import MethodSurvey.Proofs.Scan.Balance

/-! The tracker in machine words: a flag beside the name of the open method, and two counters of
64 bits that a step must not overflow. What the registers show is the tracker, and few enough
lines never overflow them. -/

namespace MethodSurvey

/-- The signed word of a number, if it has one. -/
def signedWord? (n : Int) : Option Int64 :=
  if -2 ^ 63 ≤ n ∧ n < 2 ^ 63 then some (Int64.ofInt n) else none

/-- The unsigned word of a number, if it has one. -/
def word? (n : Nat) : Option UInt64 :=
  if n < 2 ^ 64 then some (UInt64.ofNat n) else none

theorem toInt_of_signedWord? {n : Int} {d : Int64} (h : signedWord? n = some d) : d.toInt = n := by
  obtain ⟨hn, hd⟩ := Option.ite_none_right_eq_some.mp h
  rw [← Option.some.inj hd, Int64.toInt_ofInt_of_le hn.1 hn.2]

theorem exists_signedWord? {n : Int} (h : -2 ^ 63 ≤ n ∧ n < 2 ^ 63) : ∃ d, signedWord? n = some d :=
  ⟨_, if_pos h⟩

theorem toNat_of_word? {n : Nat} {k : UInt64} (h : word? n = some k) : k.toNat = n := by
  obtain ⟨hn, hk⟩ := Option.ite_none_right_eq_some.mp h
  rw [← Option.some.inj hk, UInt64.toNat_ofNat_of_lt' hn]

theorem exists_word? {n : Nat} (h : n < 2 ^ 64) : ∃ k, word? n = some k :=
  ⟨_, if_pos h⟩

namespace Tracker

theorem natAbs_depth_enter_le (t : Tracker) (line : List Char) :
    (t.enter line).depth.natAbs ≤ t.depth.natAbs + 1 := by
  rw [depth_enter]
  split <;> omega

theorem natAbs_depth_pass_le (t : Tracker) (line : List Char) :
    ((t.enter line).leave line).1.depth.natAbs ≤ t.depth.natAbs + 1 := by
  by_cases h : line.contains '}' = true ∧ (t.enter line).depth = 1
  · rw [leave_of_closing h.1 h.2]
    exact Nat.zero_le _
  · rw [leave_of_not_closing h, depth_enter]
    dsimp only
    split <;> split <;> omega

theorem natAbs_depth_step_le (t : Tracker) (declared : Option (List Char)) (line : List Char) :
    (t.step declared line).1.depth.natAbs ≤ t.depth.natAbs + 1 := by
  rcases t.step_cases declared line with
    ⟨s, -, ⟨-, rfl⟩ | ⟨name, -, rfl⟩, hstep⟩ | ⟨-, -, hstep⟩ <;> rw [hstep]
  · exact natAbs_depth_pass_le s line
  · exact Nat.le_trans (natAbs_depth_pass_le (declare name) line) (by simp [declare])
  · exact Nat.le_succ _

theorem complexity_pass_le (t : Tracker) (line : List Char) :
    (((t.enter line).leave line).2.toList.map Prod.snd).sum +
      ((t.enter line).leave line).1.complexity ≤ t.complexity + 1 := by
  have henter : (t.enter line).complexity ≤ t.complexity + 1 := by
    rw [complexity_enter]
    split <;> omega
  by_cases h : line.contains '}' = true ∧ (t.enter line).depth = 1
  · rw [leave_of_closing h.1 h.2]
    cases (t.enter line).current with
    | none => exact Nat.zero_le _
    | some name => simpa using henter
  · rw [leave_of_not_closing h]
    simpa using henter

theorem complexity_step_le (t : Tracker) (declared : Option (List Char)) (line : List Char) :
    ((t.step declared line).2.toList.map Prod.snd).sum + (t.step declared line).1.complexity ≤
      t.complexity + 1 := by
  rcases t.step_cases declared line with
    ⟨s, -, ⟨-, rfl⟩ | ⟨name, -, rfl⟩, hstep⟩ | ⟨-, -, hstep⟩ <;> rw [hstep]
  · exact complexity_pass_le s line
  · exact Nat.le_trans (complexity_pass_le (declare name) line) (by simp [declare])
  · simp

end Tracker

structure Registers where
  isOpen : Bool := false
  current : Option (List Char) := none
  depth : Int64 := 0
  complexity : UInt64 := 0

namespace Registers

def declare (name : List Char) : Registers where
  isOpen := true
  current := some name

/-- Ends the open method and gives it out. The depth stays: the brace that ends the method is
counted afterwards. -/
def close (r : Registers) : Registers × Option (List Char × UInt64) :=
  ({ r with isOpen := false, current := none, complexity := 0 },
    r.current.map fun name => (name, r.complexity))

/-- Counts the keyword and the opening brace of a line. -/
def enter? (r : Registers) (line : List Char) : Option Registers :=
  (word? (r.complexity.toNat + if hasControlKeyword line then 1 else 0)).bind fun complexity =>
    (signedWord? (r.depth.toInt + if line.contains '{' then 1 else 0)).map fun depth =>
      { r with complexity, depth }

/-- Counts the closing brace of a line, after it has closed the method at depth 1. With the
registers comes what each closing gave out. -/
def leave? (r : Registers) (line : List Char) :
    Option (Registers × List (Option (List Char × UInt64))) :=
  if line.contains '}' then
    (signedWord? (r.depth.toInt - 1)).map fun depth =>
      if r.depth.toInt = 1 then ({ r.close.1 with depth }, [r.close.2]) else ({ r with depth }, [])
  else some (r, [])

def step? (r : Registers) (declared : Option (List Char)) (line : List Char) :
    Option (Registers × List (Option (List Char × UInt64))) :=
  let r := match declared with
    | some name => declare name
    | none => r
  if r.isOpen then (r.enter? line).bind (·.leave? line) else some (r, [])

/-- The registers after some code lines, and what each closing gave out. -/
def follow? (profile : Profile) :
    Registers → List (List Char) → Option (Registers × List (Option (List Char × UInt64)))
  | r, [] => some (r, [])
  | r, line :: lines =>
    (r.step? (profile.declaredName? line) line).bind fun (r, given) =>
      (follow? profile r lines).map fun (r, later) => (r, given ++ later)

/-- The registers are those of the tracker: the flag is set if there is a name, and the words
stand for its numbers. -/
structure Shows (r : Registers) (t : Tracker) : Prop where
  isOpen_eq : r.isOpen = r.current.isSome
  current_eq : r.current = t.current
  depth_eq : r.depth.toInt = t.depth
  complexity_eq : r.complexity.toNat = t.complexity

def toNumber (given : List Char × UInt64) : List Char × Nat :=
  (given.1, given.2.toNat)

def toRecord (file : String) (given : List Char × UInt64) : MethodRecord :=
  ⟨String.ofList given.1, file, given.2.toNat⟩

variable {r r' : Registers} {t : Tracker} {line : List Char}
  {given : List (Option (List Char × UInt64))}

theorem shows_start : Shows {} {} :=
  ⟨rfl, rfl, rfl, rfl⟩

theorem shows_declare (name : List Char) : Shows (declare name) (Tracker.declare name) :=
  ⟨rfl, rfl, rfl, rfl⟩

theorem Shows.isOpen (h : r.Shows t) : r.isOpen = t.isOpen := by
  rw [h.isOpen_eq, h.current_eq, Tracker.isOpen]

theorem Shows.enter? (h : r.Shows t) (he : r.enter? line = some r') : r'.Shows (t.enter line) := by
  obtain ⟨k, hk, he⟩ := Option.bind_eq_some_iff.mp he
  obtain ⟨d, hd, rfl⟩ := Option.map_eq_some_iff.mp he
  refine ⟨h.isOpen_eq, h.current_eq, ?_, ?_⟩
  · rw [toInt_of_signedWord? hd, Tracker.depth_enter, h.depth_eq]
  · rw [toNat_of_word? hk, Tracker.complexity_enter, h.complexity_eq]

/-- A closing gives out the method that the tracker gives out, and nothing else is given out. -/
theorem Shows.leave? (h : r.Shows t) (ho : t.isOpen = true)
    (hl : r.leave? line = some (r', given)) :
    r'.Shows (t.leave line).1 ∧
      given.map (Option.map toNumber) = (t.leave line).2.toList.map some := by
  obtain ⟨name, hname⟩ := Option.isSome_iff_exists.mp ho
  rw [Registers.leave?] at hl
  by_cases hc : line.contains '}' = true
  · rw [if_pos hc] at hl
    obtain ⟨d, hd, hr⟩ := Option.map_eq_some_iff.mp hl
    have hdepth := toInt_of_signedWord? hd
    by_cases hone : r.depth.toInt = 1
    · rw [if_pos hone, Prod.mk.injEq] at hr
      obtain ⟨rfl, rfl⟩ := hr
      rw [Tracker.leave_of_closing hc (h.depth_eq.symm.trans hone), hname]
      exact ⟨⟨rfl, rfl, by rw [hdepth, hone]; rfl, rfl⟩,
        by simp [close, toNumber, h.current_eq, hname, h.complexity_eq]⟩
    · rw [if_neg hone, Prod.mk.injEq] at hr
      obtain ⟨rfl, rfl⟩ := hr
      rw [Tracker.leave_of_not_closing fun hh => hone (h.depth_eq.trans hh.2), if_pos hc]
      exact ⟨⟨h.isOpen_eq, h.current_eq, by rw [hdepth, h.depth_eq], h.complexity_eq⟩, rfl⟩
  · rw [if_neg hc, Option.some.injEq, Prod.mk.injEq] at hl
    obtain ⟨rfl, rfl⟩ := hl
    rw [Tracker.leave_of_not_closing fun hh => hc hh.1, if_neg hc, Int.sub_zero]
    exact ⟨h, rfl⟩

theorem Shows.pass? (h : r.Shows t) (ho : t.isOpen = true)
    (hp : (r.enter? line).bind (·.leave? line) = some (r', given)) :
    r'.Shows ((t.enter line).leave line).1 ∧
      given.map (Option.map toNumber) = ((t.enter line).leave line).2.toList.map some := by
  obtain ⟨inside, he, hl⟩ := Option.bind_eq_some_iff.mp hp
  exact (h.enter? he).leave? ho hl

theorem Shows.step? {declared : Option (List Char)} (h : r.Shows t)
    (hs : r.step? declared line = some (r', given)) :
    r'.Shows (t.step declared line).1 ∧
      given.map (Option.map toNumber) = (t.step declared line).2.toList.map some := by
  cases declared with
  | some name =>
    rw [Tracker.step_some]
    exact (shows_declare name).pass? rfl hs
  | none =>
    cases hname : t.current with
    | some name =>
      have ho : t.isOpen = true := Option.isSome_iff_exists.mpr ⟨name, hname⟩
      rw [Registers.step?, h.isOpen, if_pos ho] at hs
      rw [Tracker.step_none_of_open hname]
      exact h.pass? ho hs
    | none =>
      have ho : ¬ t.isOpen = true := by simp [Tracker.isOpen, hname]
      rw [Registers.step?, h.isOpen, if_neg ho, Option.some.injEq, Prod.mk.injEq] at hs
      obtain ⟨rfl, rfl⟩ := hs
      rw [Tracker.step_none_of_not_open hname]
      exact ⟨h, rfl⟩

theorem map_toRecord (file : String) {closed : Option (List Char × Nat)}
    (h : given.map (Option.map toNumber) = closed.toList.map some) :
    given.map (Option.map (toRecord file)) =
      (closed.map fun (name, complexity) =>
        MethodRecord.mk (String.ofList name) file complexity).toList.map some := by
  have hr := congrArg (List.map (Option.map fun (name, complexity) =>
    MethodRecord.mk (String.ofList name) file complexity)) h
  rw [List.map_map] at hr
  cases closed <;> simpa [Function.comp_def, toNumber, toRecord] using hr

/-- While no counter overflows, the registers go with the tracker, and each closing gives out one
method. -/
theorem Shows.follow? {profile : Profile} {lines : List (List Char)} (file : String)
    (h : r.Shows t) (hf : r.follow? profile lines = some (r', given)) :
    r'.Shows (Scanner.follow profile file t lines).1 ∧
      given.map (Option.map (toRecord file)) =
        ((Scanner.follow profile file t lines).2.filterMap Event.record?).map some := by
  induction lines generalizing r t given with
  | nil =>
    obtain ⟨rfl, rfl⟩ := Prod.mk.inj (Option.some.inj hf)
    exact ⟨h, rfl⟩
  | cons line lines ih =>
    obtain ⟨⟨next, first⟩, hs, hf⟩ := Option.bind_eq_some_iff.mp hf
    obtain ⟨⟨last, later⟩, hl, hr⟩ := Option.map_eq_some_iff.mp hf
    obtain ⟨rfl, rfl⟩ := Prod.mk.inj hr
    have hstep := h.step? hs
    have hrest := ih hstep.1 hl
    refine ⟨hrest.1, ?_⟩
    rw [List.map_append, map_toRecord file hstep.2, hrest.2, ← Scanner.filterMap_record?_eventsOf,
      ← List.map_append, ← List.filterMap_append]
    rfl

theorem Shows.exists_enter? (h : r.Shows t) (hd : t.depth.natAbs + 1 < 2 ^ 63)
    (hc : t.complexity + 1 < 2 ^ 63) (line : List Char) : ∃ inside, r.enter? line = some inside := by
  have hcomplexity := h.complexity_eq
  have hdepth := h.depth_eq
  have hk : r.complexity.toNat + (if hasControlKeyword line then 1 else 0) < 2 ^ 64 := by
    split <;> omega
  have hn : -2 ^ 63 ≤ r.depth.toInt + (if line.contains '{' then 1 else 0) ∧
      r.depth.toInt + (if line.contains '{' then 1 else 0) < 2 ^ 63 := by
    split <;> omega
  obtain ⟨k, hword⟩ := exists_word? hk
  obtain ⟨d, hsigned⟩ := exists_signedWord? hn
  exact ⟨{ r with complexity := k, depth := d },
    by simp only [Registers.enter?, hword, hsigned, Option.bind_some, Option.map_some]⟩

theorem Shows.exists_leave? (h : r.Shows t) (hd : t.depth.natAbs < 2 ^ 63) (line : List Char) :
    ∃ result, r.leave? line = some result := by
  have hdepth := h.depth_eq
  rw [Registers.leave?]
  split
  case isTrue =>
    have hn : -2 ^ 63 ≤ r.depth.toInt - 1 ∧ r.depth.toInt - 1 < 2 ^ 63 := by omega
    obtain ⟨d, hsigned⟩ := exists_signedWord? hn
    rw [hsigned]
    exact ⟨_, rfl⟩
  case isFalse => exact ⟨_, rfl⟩

theorem Shows.exists_pass? (h : r.Shows t) (hd : t.depth.natAbs + 1 < 2 ^ 63)
    (hc : t.complexity + 1 < 2 ^ 63) (line : List Char) :
    ∃ result, (r.enter? line).bind (·.leave? line) = some result := by
  obtain ⟨inside, he⟩ := h.exists_enter? hd hc line
  have hdepth := t.natAbs_depth_enter_le line
  obtain ⟨result, hl⟩ := (h.enter? he).exists_leave? (by omega) line
  exact ⟨result, by rw [he, Option.bind_some, hl]⟩

theorem Shows.exists_step? (h : r.Shows t) (hd : t.depth.natAbs + 1 < 2 ^ 63)
    (hc : t.complexity + 1 < 2 ^ 63) (declared : Option (List Char)) (line : List Char) :
    ∃ result, r.step? declared line = some result := by
  cases declared with
  | some name =>
    have hone : 0 + 1 < 2 ^ 63 := by omega
    exact (shows_declare name).exists_pass? hone hone line
  | none =>
    rw [Registers.step?]
    split
    case isTrue => exact h.exists_pass? hd hc line
    case isFalse => exact ⟨_, rfl⟩

/-- Fewer lines than a signed word can count overflow no counter. -/
theorem Shows.exists_follow? {profile : Profile} {lines : List (List Char)} (h : r.Shows t)
    (hd : t.depth.natAbs + lines.length < 2 ^ 63) (hc : t.complexity + lines.length < 2 ^ 63) :
    ∃ r' given, r.follow? profile lines = some (r', given) := by
  induction lines generalizing r t with
  | nil => exact ⟨r, [], rfl⟩
  | cons line lines ih =>
    rw [List.length_cons] at hd hc
    obtain ⟨⟨next, first⟩, hs⟩ :=
      h.exists_step? (by omega) (by omega) (profile.declaredName? line) line
    have hdepth := t.natAbs_depth_step_le (profile.declaredName? line) line
    have hcomplexity := t.complexity_step_le (profile.declaredName? line) line
    obtain ⟨last, later, hf⟩ := ih (h.step? hs).1 (by omega) (by omega)
    exact ⟨last, first ++ later, by simp [Registers.follow?, hs, hf]⟩

end Registers

end MethodSurvey
