import MethodSurvey.Branching

/-! The method that is open while the lines of its body go by. Braces and keywords
count once a line: a line opens at most one level and closes at most one. -/

namespace MethodSurvey

structure Tracker where
  /-- The name of the open method. -/
  current : Option (List Char) := none
  /-- Lines with an opening brace less lines with a closing one. Negative where a
  closing brace comes before the body has been opened. -/
  depth : Int := 0
  complexity : Nat := 0
  deriving DecidableEq, Repr

namespace Tracker

def isOpen (t : Tracker) : Bool :=
  t.current.isSome

/-- A declaration opens its method; one that was open is dropped. -/
def declare (name : List Char) : Tracker where
  current := some name

/-- Counts the keyword and the opening brace of a line. -/
def enter (t : Tracker) (line : List Char) : Tracker :=
  { t with
    depth := if line.contains '{' then t.depth + 1 else t.depth
    complexity := if hasControlKeyword line then t.complexity + 1 else t.complexity }

/-- Counts the closing brace of a line. At depth 1 it closes the method, whose name
and complexity are given out. -/
def leave (t : Tracker) (line : List Char) : Tracker × Option (List Char × Nat) :=
  if !line.contains '}' then (t, none)
  else if t.depth = 1 then ({}, t.current.map fun name => (name, t.complexity))
  else ({ t with depth := t.depth - 1 }, none)

/-- Feeds a code line, with the name that it declares, to the tracker. -/
def step (t : Tracker) (declared : Option (List Char)) (line : List Char) :
    Tracker × Option (List Char × Nat) :=
  let t := match declared with
    | some name => declare name
    | none => t
  if t.isOpen then (t.enter line).leave line else (t, none)

@[simp] theorem current_enter (t : Tracker) (line : List Char) :
    (t.enter line).current = t.current :=
  rfl

theorem depth_enter (t : Tracker) (line : List Char) :
    (t.enter line).depth = t.depth + if line.contains '{' then 1 else 0 := by
  simp only [enter]
  split <;> simp

theorem complexity_enter (t : Tracker) (line : List Char) :
    (t.enter line).complexity = t.complexity + if hasControlKeyword line then 1 else 0 := by
  simp only [enter]
  split <;> simp

theorem leave_of_closing {t : Tracker} {line : List Char} (hc : line.contains '}' = true)
    (hd : t.depth = 1) : t.leave line = ({}, t.current.map fun name => (name, t.complexity)) := by
  simp only [leave, hc, hd, Bool.not_true, Bool.false_eq_true, if_false, if_true]

theorem leave_of_not_closing {t : Tracker} {line : List Char}
    (h : ¬ (line.contains '}' = true ∧ t.depth = 1)) :
    t.leave line = ({ t with depth := t.depth - if line.contains '}' then 1 else 0 }, none) := by
  cases hc : line.contains '}' with
  | false => simp only [leave, hc, Bool.not_false, Bool.false_eq_true, if_true, if_false, Int.sub_zero]
  | true =>
    have hd : t.depth ≠ 1 := fun hd => h ⟨hc, hd⟩
    simp only [leave, hc, hd, Bool.not_true, Bool.false_eq_true, if_false, if_true]

theorem step_some (t : Tracker) (name line : List Char) :
    t.step (some name) line = ((declare name).enter line).leave line :=
  rfl

theorem step_none_of_open {t : Tracker} {name : List Char} (h : t.current = some name)
    (line : List Char) : t.step none line = (t.enter line).leave line := by
  simp [step, isOpen, h]

theorem step_none_of_not_open {t : Tracker} (h : t.current = none) (line : List Char) :
    t.step none line = (t, none) := by
  simp [step, isOpen, h]

theorem step_none_atRest (line : List Char) : ({} : Tracker).step none line = ({}, none) :=
  rfl

/-- A code line goes through the open method, which it may have declared itself, or it changes
nothing. -/
theorem step_cases (t : Tracker) (declared : Option (List Char)) (line : List Char) :
    (∃ s : Tracker, s.isOpen = true ∧
        (declared = none ∧ s = t ∨ ∃ name, declared = some name ∧ s = declare name) ∧
        t.step declared line = (s.enter line).leave line) ∨
      declared = none ∧ t.isOpen = false ∧ t.step declared line = (t, none) := by
  cases declared with
  | some name => exact .inl ⟨declare name, rfl, .inr ⟨name, rfl, rfl⟩, step_some t name line⟩
  | none =>
    cases hname : t.current with
    | some name =>
      have ho : t.isOpen = true := by simp [isOpen, hname]
      exact .inl ⟨t, ho, .inl ⟨rfl, rfl⟩, step_none_of_open hname line⟩
    | none =>
      have ho : t.isOpen = false := by simp [isOpen, hname]
      exact .inr ⟨rfl, ho, step_none_of_not_open hname line⟩

end Tracker

end MethodSurvey
