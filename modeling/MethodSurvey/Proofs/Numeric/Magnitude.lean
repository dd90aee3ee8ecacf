import Mathlib.Algebra.Order.Field.Basic
import Mathlib.Algebra.Order.Field.Rat
import Mathlib.Order.Monotone.Basic
import Mathlib.Tactic.Linarith
import Mathlib.Tactic.Positivity
import MethodSurvey.Numeric.Binary64

/-! The magnitudes of ranks as rational numbers. They grow with the rank, and beyond the first
binade no step is greater than the 2^52nd part of what it starts from. -/

namespace MethodSurvey.Binary64

theorem binade_eq : binade = 4503599627370496 := by decide

theorem unitsPerOne_pos : 0 < unitsPerOne := by decide +kernel

theorem binade_pos : 0 < binade := by decide

/-- A rank is given by its binade and its place there, the end of the binade included. -/
theorem units_add {shift m : Nat} (hm : m ≤ 2 * binade) (hs : shift = 0 ∨ binade ≤ m) :
    units (shift * binade + m) = m * 2 ^ shift := by
  simp only [units, binade_eq, Nat.shiftLeft_eq] at hm hs ⊢
  by_cases hlow : m < 4503599627370496
  · obtain rfl : shift = 0 := by omega
    rw [if_pos (by omega)]
    omega
  rw [if_neg (by omega)]
  by_cases hhigh : m < 2 * 4503599627370496
  · congr 1
    · omega
    · congr 1
      omega
  · have hend : m = 2 * 4503599627370496 := by omega
    have hshift : (shift * 4503599627370496 + m) / 4503599627370496 - 1 = shift + 1 := by omega
    have hplace : (shift * 4503599627370496 + m) % 4503599627370496 = 0 := by omega
    rw [hshift, hplace, hend, Nat.pow_succ]
    omega

theorem exists_place (rank : Nat) :
    ∃ shift m, rank = shift * binade + m ∧ m < 2 * binade ∧ (shift = 0 ∨ binade ≤ m) := by
  by_cases hrank : rank < binade
  · exact ⟨0, rank, by omega, by omega, .inl rfl⟩
  · have hpos : 0 < rank / binade := Nat.div_pos (Nat.le_of_not_lt hrank) binade_pos
    obtain ⟨shift, hshift⟩ := Nat.exists_eq_succ_of_ne_zero hpos.ne'
    have hsplit := Nat.div_add_mod' rank binade
    have hmod := Nat.mod_lt rank binade_pos
    rw [hshift, Nat.succ_mul] at hsplit
    exact ⟨shift, binade + rank % binade, by omega, by omega, .inr (Nat.le_add_right _ _)⟩

theorem strictMono_units : StrictMono units := by
  refine strictMono_nat_of_lt_succ fun rank => ?_
  obtain ⟨shift, m, rfl, hm, hs⟩ := exists_place rank
  rw [Nat.add_assoc, units_add hm.le hs, units_add hm (by omega)]
  exact Nat.mul_lt_mul_of_pos_right (Nat.lt_succ_self m) (Nat.two_pow_pos shift)

theorem le_units_succ {shift m : Nat} (hm : m ≤ 2 * binade) (hs : shift = 0 ∨ binade ≤ m) :
    (m + 1) * 2 ^ shift ≤ units (shift * binade + m + 1) := by
  rcases Nat.lt_or_eq_of_le hm with hlt | rfl
  · rw [Nat.add_assoc, units_add hlt (by omega)]
  · have hplace : shift * binade + 2 * binade + 1 = (shift + 1) * binade + (binade + 1) := by
      rw [Nat.succ_mul shift]
      omega
    have hbinade := binade_pos
    rw [hplace, units_add (by omega) (by omega), Nat.pow_succ',
      ← Nat.mul_assoc]
    exact Nat.mul_le_mul_right _ (by omega)

theorem units_succ_le {rank : Nat} (h : binade ≤ rank) :
    binade * units (rank + 1) ≤ (binade + 1) * units rank := by
  obtain ⟨shift, m, rfl, hm, hs⟩ := exists_place rank
  have hplace : binade ≤ m := by
    rcases hs with rfl | hs
    · omega
    · exact hs
  rw [Nat.add_assoc, units_add hm.le hs, units_add hm (by omega), ← Nat.mul_assoc, ← Nat.mul_assoc]
  refine Nat.mul_le_mul_right _ ?_
  rw [Nat.mul_succ, Nat.succ_mul]
  omega

/-- The magnitude of a rank. -/
def magnitude (rank : Nat) : ℚ := units rank / unitsPerOne

theorem unitsPerOne_cast_pos : (0 : ℚ) < unitsPerOne := by exact_mod_cast unitsPerOne_pos

theorem strictMono_magnitude : StrictMono magnitude := fun rank rank' h =>
  div_lt_div_of_pos_right (by exact_mod_cast strictMono_units h) unitsPerOne_cast_pos

theorem magnitude_nonneg (rank : Nat) : 0 ≤ magnitude rank :=
  div_nonneg (Nat.cast_nonneg _) unitsPerOne_cast_pos.le

theorem magnitude_zero : magnitude 0 = 0 := by
  have hzero : units 0 = 0 := by decide
  rw [magnitude, hzero, Nat.cast_zero, zero_div]

/-- The value of a finite number. -/
def toRat (x : Binary64) : ℚ := if x.negative then -magnitude x.rank else magnitude x.rank

theorem toRat_of_not_negative {x : Binary64} (h : x.negative = false) :
    x.toRat = magnitude x.rank := by
  rw [toRat, h, if_neg Bool.false_ne_true]

/-- How far apart two neighbours lie in a binade. -/
def step (shift : Nat) : ℚ := 2 ^ shift / unitsPerOne

theorem step_pos (shift : Nat) : 0 < step shift := div_pos (by positivity) unitsPerOne_cast_pos

theorem magnitude_add {shift m : Nat} (hm : m ≤ 2 * binade) (hs : shift = 0 ∨ binade ≤ m) :
    magnitude (shift * binade + m) = m * step shift := by
  rw [magnitude, units_add hm hs, step, ← mul_div_assoc]
  push_cast
  rfl

theorem le_magnitude_succ {shift m : Nat} (hm : m ≤ 2 * binade) (hs : shift = 0 ∨ binade ≤ m) :
    (m + 1) * step shift ≤ magnitude (shift * binade + m + 1) := by
  rw [magnitude, step, ← mul_div_assoc]
  refine div_le_div_of_nonneg_right ?_ unitsPerOne_cast_pos.le
  exact_mod_cast le_units_succ hm hs

theorem magnitude_succ_sub_le {rank : Nat} (h : binade ≤ rank) :
    2 ^ 52 * (magnitude (rank + 1) - magnitude rank) ≤ magnitude rank := by
  have hstep : (binade : ℚ) * units (rank + 1) ≤ (binade + 1) * units rank := by
    exact_mod_cast units_succ_le h
  have hbinade : (binade : ℚ) = 2 ^ 52 := by
    rw [binade_eq]
    norm_num
  rw [hbinade] at hstep
  rw [magnitude, magnitude, ← sub_div, ← mul_div_assoc]
  refine div_le_div_of_nonneg_right ?_ unitsPerOne_cast_pos.le
  linarith

end MethodSurvey.Binary64
