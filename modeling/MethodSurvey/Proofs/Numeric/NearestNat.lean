import Mathlib.Algebra.Order.Field.Basic
import Mathlib.Algebra.Order.Field.Rat
import Mathlib.Tactic.Linarith
import Mathlib.Tactic.Positivity
import MethodSurvey.Numeric.Binary64

/-! The integer nearest to a quotient. There is one for each quotient, since two that are
equally near are not both even. -/

namespace MethodSurvey

/-- An integer at a distance of one half at most, and even at that distance. -/
structure NearestNat (x : ℚ) (n : Nat) : Prop where
  near : |x - n| ≤ 1 / 2
  even : |x - n| = 1 / 2 → n % 2 = 0

variable {x y : ℚ} {n m : Nat}

theorem NearestNat.mono (hxy : x ≤ y) (hn : NearestNat x n) (hm : NearestNat y m) : n ≤ m := by
  by_contra hlt
  have hgap : (m : ℚ) + 1 ≤ n := by exact_mod_cast Nat.lt_of_not_le hlt
  obtain ⟨-, hhigh⟩ := abs_le.mp hm.near
  obtain ⟨hlow, -⟩ := abs_le.mp hn.near
  -- The two lie one apart, with both quotients in the middle between them.
  have hnext : (n : ℚ) = m + 1 := by linarith
  have hbelow : x - n = -(1 / 2) := by linarith
  have habove : y - m = 1 / 2 := by linarith
  have heven := hn.even (by rw [hbelow, abs_neg, abs_of_pos one_half_pos])
  have heven' := hm.even (by rw [habove, abs_of_pos one_half_pos])
  have hsucc : n = m + 1 := by exact_mod_cast hnext
  omega

theorem NearestNat.unique (hn : NearestNat x n) (hm : NearestNat x m) : n = m :=
  Nat.le_antisymm (hn.mono le_rfl hm) (hm.mono le_rfl hn)

theorem nearestNat_cast (n : Nat) : NearestNat n n := by
  have hself : |(n : ℚ) - n| = 0 := by rw [sub_self, abs_zero]
  exact ⟨hself.le.trans one_half_pos.le, fun h => absurd (hself.symm.trans h) one_half_pos.ne⟩

section Rest

variable {rest : ℚ}

theorem nearestNat_of_rest_lt (hx : x = n + rest) (hnonneg : 0 ≤ rest) (h : rest < 1 / 2) :
    NearestNat x n := by
  have habs : |x - n| = rest := by rw [hx, add_sub_cancel_left, abs_of_nonneg hnonneg]
  exact ⟨habs ▸ h.le, fun he => absurd (habs.symm.trans he) h.ne⟩

theorem nearestNat_of_lt_rest (hx : x = n + rest) (h : 1 / 2 < rest) (hlt : rest < 1) :
    NearestNat x (n + 1) := by
  have habs : |x - (n + 1 : Nat)| = 1 - rest := by
    rw [hx, abs_sub_comm, Nat.cast_succ, add_sub_add_left_eq_sub, abs_of_pos (sub_pos.mpr hlt)]
  have hhalf : 1 - rest < 1 / 2 := by linarith
  exact ⟨habs ▸ hhalf.le, fun he => absurd (habs.symm.trans he) hhalf.ne⟩

/-- Two integers are equally near to the middle between them, and one of them is even. -/
theorem nearestNat_of_middle (hx : x = n + 1 / 2) :
    NearestNat x (if n % 2 = 0 then n else n + 1) := by
  split_ifs with heven
  · have habs : |x - n| = 1 / 2 := by rw [hx, add_sub_cancel_left, abs_of_pos one_half_pos]
    exact ⟨habs.le, fun _ => heven⟩
  · have habs : |x - (n + 1 : Nat)| = 1 / 2 := by
      rw [hx, abs_sub_comm, Nat.cast_succ, add_sub_add_left_eq_sub, sub_self_div_two,
        abs_of_pos one_half_pos]
    exact ⟨habs.le, fun _ => by omega⟩

end Rest

theorem cast_div_eq (num : Nat) {den : Nat} (hden : 0 < den) :
    (num : ℚ) / den = (num / den : Nat) + (num % den : Nat) / den := by
  have hpos : (den : ℚ) ≠ 0 := by exact_mod_cast hden.ne'
  rw [eq_comm, ← mul_right_cancel_iff_of_pos (show (0 : ℚ) < den by positivity), add_mul,
    div_mul_cancel₀ _ hpos, div_mul_cancel₀ _ hpos]
  exact_mod_cast Nat.div_add_mod' num den

theorem nearestNat_roundDiv (num : Nat) {den : Nat} (hden : 0 < den) :
    NearestNat (num / den) (roundDiv num den) := by
  have hpos : (0 : ℚ) < den := by exact_mod_cast hden
  have hsplit := cast_div_eq num hden
  have hlt : ((num % den : Nat) : ℚ) / den < 1 := by
    rw [div_lt_one hpos]
    exact_mod_cast Nat.mod_lt num hden
  rw [roundDiv]
  cases hcompare : compare (2 * (num % den)) den with
  | lt =>
    refine nearestNat_of_rest_lt hsplit (by positivity) ?_
    rw [div_lt_div_iff₀ hpos two_pos, one_mul, mul_comm]
    exact_mod_cast Nat.compare_eq_lt.mp hcompare
  | gt =>
    refine nearestNat_of_lt_rest hsplit ?_ hlt
    rw [div_lt_div_iff₀ two_pos hpos, one_mul, mul_comm]
    exact_mod_cast Nat.compare_eq_gt.mp hcompare
  | eq =>
    have hmiddle : ((num % den : Nat) : ℚ) / den = 1 / 2 := by
      rw [div_eq_div_iff hpos.ne' two_ne_zero, one_mul, mul_comm]
      exact_mod_cast Nat.compare_eq_eq.mp hcompare
    exact nearestNat_of_middle (hsplit.trans (by rw [hmiddle]))

end MethodSurvey
