import Mathlib.Data.Option.Basic
import MethodSurvey.Proofs.Text.Runs
import MethodSurvey.Toml.Reader

/-! What the readers do with a text that begins as they want it. -/

namespace MethodSurvey.Toml.Reader

open Text (Stops)

variable {α β γ : Type} {p : Char → Bool} {c d : Char} {run rest s t : List Char}

theorem bind_run (r : Reader α) (f : α → Reader β) (s : List Char) :
    (r >>= f) s = (r s).bind fun found => f found.1 found.2 := rfl

theorem pure_run (a : α) (s : List Char) : (pure a : Reader α) s = some (a, s) := rfl

theorem map_run (f : α → β) (r : Reader α) (s : List Char) :
    (f <$> r) s = (r s).map fun found => (f found.1, found.2) := by
  rw [map_eq_pure_bind, bind_run]
  cases r s <;> rfl

theorem guard_run {P : Prop} [Decidable P] (h : P) (s : List Char) :
    (guard P : Reader Unit) s = some ((), s) := by
  rw [guard, if_pos h, pure_run]

theorem takeWhile_run (hrun : ∀ c ∈ run, p c = true) (hrest : Stops p rest) :
    takeWhile p (run ++ rest) = some (run, rest) := by
  rw [takeWhile, Text.takeWhile_run hrun hrest, Text.dropWhile_run hrun hrest]

theorem accept_append (word s : List Char) : accept word (word ++ s) = some (true, s) := by
  simp [accept]

theorem accept_cons (c : Char) (s : List Char) : accept [c] (c :: s) = some (true, s) :=
  accept_append [c] s

theorem accept_of_head_ne {word : List Char} (h : d ≠ c) :
    accept (d :: word) (c :: s) = some (false, c :: s) := by
  simp [accept, List.isPrefixOf, h]

theorem accept_of_stops {word : List Char} (hs : Stops p s) (hc : p c = true) :
    accept (c :: word) s = some (false, s) := by
  cases s with
  | nil => rfl
  | cons d s =>
    refine accept_of_head_ne ?_
    rintro rfl
    exact Bool.false_ne_true ((hs c rfl).symm.trans hc)

theorem expect_append (word s : List Char) : expect word (word ++ s) = some ((), s) := by
  rw [expect, bind_run, accept_append]
  rfl

theorem expect_cons (c : Char) (s : List Char) : expect [c] (c :: s) = some ((), s) :=
  expect_append [c] s

theorem one_cons (h : p c = true) : one p (c :: s) = some (c, s) := by
  simp [one, h]

/-- Reads back what was written item after item, by a step that reads one item. The
condition says what may follow an item. -/
theorem collectUpTo_flatMap {step : Reader (Option α)} {write : β → List Char} {value : β → α}
    {P : List Char → Prop} {items : List β} {limit : Nat}
    (hstep : ∀ b ∈ items, ∀ u, P u → step (write b ++ u) = some (some (value b), u))
    (hwrite : ∀ b ∈ items, ∀ u, P (write b ++ u)) (hend : P s)
    (hstop : step s = some (none, t)) (hlimit : items.length < limit) :
    collectUpTo step limit (items.flatMap write ++ s) = some (items.map value, t) := by
  induction items generalizing limit with
  | nil =>
    obtain ⟨limit, rfl⟩ := Nat.exists_eq_succ_of_ne_zero (Nat.ne_zero_of_lt hlimit)
    simp only [List.flatMap_nil, List.nil_append, collectUpTo, bind_run, hstop, Option.bind_some,
      pure_run, List.map_nil]
  | cons b items ih =>
    obtain ⟨limit, rfl⟩ := Nat.exists_eq_succ_of_ne_zero (Nat.ne_zero_of_lt hlimit)
    have hrest := ih (fun a ha => hstep a (List.mem_cons_of_mem b ha))
      (fun a ha => hwrite a (List.mem_cons_of_mem b ha)) (Nat.lt_of_succ_lt_succ hlimit)
    have hnext : P (items.flatMap write ++ s) := by
      cases items with
      | nil => exact hend
      | cons a items =>
        rw [List.flatMap_cons, List.append_assoc]
        exact hwrite a (by simp) _
    have hb := hstep b List.mem_cons_self _ hnext
    simp only [List.flatMap_cons, List.append_assoc, collectUpTo, bind_run, hb, Option.bind_some,
      hrest, pure_run, List.map_cons]

theorem length_le_length_flatMap {write : β → List Char} {items : List β}
    (h : ∀ b ∈ items, write b ≠ []) : items.length ≤ (items.flatMap write).length := by
  induction items with
  | nil => exact Nat.zero_le _
  | cons b items ih =>
    have hb := List.length_pos_iff.mpr (h b List.mem_cons_self)
    have hitems := ih fun a ha => h a (List.mem_cons_of_mem b ha)
    rw [List.flatMap_cons, List.length_append, List.length_cons]
    omega

theorem collect_flatMap {step : Reader (Option α)} {write : β → List Char} {value : β → α}
    {P : List Char → Prop} {items : List β}
    (hstep : ∀ b ∈ items, ∀ u, P u → step (write b ++ u) = some (some (value b), u))
    (hwrite : ∀ b ∈ items, ∀ u, P (write b ++ u)) (hne : ∀ b ∈ items, write b ≠ [])
    (hend : P s) (hstop : step s = some (none, t)) :
    collect step (items.flatMap write ++ s) = some (items.map value, t) := by
  have hlength := length_le_length_flatMap hne
  refine collectUpTo_flatMap hstep hwrite hend hstop ?_
  rw [List.length_append]
  omega

end MethodSurvey.Toml.Reader
