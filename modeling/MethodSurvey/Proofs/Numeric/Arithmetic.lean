import Mathlib.Tactic.Ring
import MethodSurvey.Proofs.Numeric.NearestRank

/-! Counts, quotients and products as numbers. A count below 2^53 is a number itself, and a
quotient or a product of finite numbers is the exact one rounded once. -/

namespace MethodSurvey.Binary64

variable {x y : Binary64}

theorem isNaN_of_isFinite (h : x.isFinite = true) : x.isNaN = false :=
  decide_eq_false (Nat.lt_asymm (of_decide_eq_true h))

theorem isInfinite_of_isFinite (h : x.isFinite = true) : x.isInfinite = false :=
  decide_eq_false (Nat.ne_of_lt (of_decide_eq_true h))

/-- Far below the greatest finite number every quotient rounds to a finite number. -/
theorem nearestRank_rankOfRatio_of_le {num den : Nat} (hden : 0 < den)
    (h : (num : ℚ) / den ≤ 2 ^ 128) :
    rankOfRatio num den < infinityRank ∧ NearestRank (num / den) (rankOfRatio num den) := by
  have hunits : 2 * 2 ^ 128 * unitsPerOne < units infinityRank := by decide +kernel
  have htop : 2 * 2 ^ 128 < magnitude infinityRank := by
    rw [magnitude, lt_div_iff₀ unitsPerOne_cast_pos]
    exact_mod_cast hunits
  refine nearestRank_rankOfRatio hden ?_
  linarith [magnitude_nonneg (infinityRank - 1)]

theorem nearestRank_ofNat {n : Nat} (h : n ≤ 2 ^ 128) :
    (ofNat n).isFinite = true ∧ NearestRank n (ofNat n).rank := by
  have hquotient : (n : ℚ) / (1 : Nat) = n := by rw [Nat.cast_one, div_one]
  have hle : (n : ℚ) / (1 : Nat) ≤ 2 ^ 128 := by
    rw [hquotient]
    exact_mod_cast h
  obtain ⟨hlt, hrank⟩ := nearestRank_rankOfRatio_of_le Nat.one_pos hle
  rw [hquotient] at hrank
  exact ⟨decide_eq_true hlt, hrank⟩

theorem exists_magnitude_eq {n : Nat} (h : n < 2 ^ 53) : ∃ rank, magnitude rank = n := by
  rcases Nat.eq_zero_or_pos n with rfl | hpos
  · exact ⟨0, by rw [magnitude_zero, Nat.cast_zero]⟩
  · have hlog : n.log2 ≤ 52 := Nat.le_of_lt_succ ((Nat.log2_lt hpos.ne').mpr h)
    have hpower : 2 ^ n.log2 * 2 ^ (52 - n.log2) = binade := by
      rw [← Nat.pow_add, Nat.add_sub_cancel' hlog]
      rfl
    have hlow : binade ≤ n * 2 ^ (52 - n.log2) := by
      rw [← hpower]
      exact Nat.mul_le_mul_right _ (Nat.log2_self_le hpos.ne')
    have hhigh : n * 2 ^ (52 - n.log2) ≤ 2 * binade := by
      rw [← hpower, ← Nat.mul_assoc, ← Nat.pow_succ']
      exact Nat.mul_le_mul_right _ Nat.lt_log2_self.le
    have hone : 2 ^ (52 - n.log2) * 2 ^ (1022 + n.log2) = unitsPerOne := by
      have hsum : 52 - n.log2 + (1022 + n.log2) = 1074 := by omega
      rw [← Nat.pow_add, hsum, unitsPerOne, Nat.one_shiftLeft]
    refine ⟨(1022 + n.log2) * binade + n * 2 ^ (52 - n.log2), ?_⟩
    rw [magnitude, units_add hhigh (.inr hlow), Nat.mul_assoc, hone, Nat.cast_mul,
      mul_div_cancel_right₀ _ unitsPerOne_cast_pos.ne']

theorem magnitude_ofNat {n : Nat} (h : n < 2 ^ 53) : magnitude (ofNat n).rank = n := by
  obtain ⟨rank, hrank⟩ := exists_magnitude_eq h
  have hnearest := (nearestRank_ofNat (h.le.trans (by decide +kernel))).2
  rw [← hrank] at hnearest ⊢
  rw [hnearest.unique (.of_magnitude rank)]

theorem nearestRank_div (hx : x.isFinite = true) (hy : y.isFinite = true) (hne : y.rank ≠ 0)
    (h : magnitude x.rank / magnitude y.rank ≤ 2 ^ 128) :
    (x / y).negative = (x.negative != y.negative) ∧ (x / y).isFinite = true ∧
      NearestRank (magnitude x.rank / magnitude y.rank) (x / y).rank := by
  have hdiv : x / y = ofRatio (x.negative != y.negative) (units x.rank) (units y.rank) := by
    change div x y = _
    rw [div, isNaN_of_isFinite hx, isNaN_of_isFinite hy, isInfinite_of_isFinite hx,
      isInfinite_of_isFinite hy, if_neg hne]
    rfl
  have hquotient : magnitude x.rank / magnitude y.rank = units x.rank / units y.rank :=
    div_div_div_cancel_right₀ unitsPerOne_cast_pos.ne' _ _
  have hden : 0 < units y.rank := strictMono_units (Nat.pos_of_ne_zero hne)
  rw [hquotient] at h ⊢
  obtain ⟨hlt, hrank⟩ := nearestRank_rankOfRatio_of_le hden h
  rw [hdiv]
  exact ⟨rfl, decide_eq_true hlt, hrank⟩

theorem nearestRank_mul (hx : x.isFinite = true) (hy : y.isFinite = true)
    (h : magnitude x.rank * magnitude y.rank ≤ 2 ^ 128) :
    (x * y).negative = (x.negative != y.negative) ∧ (x * y).isFinite = true ∧
      NearestRank (magnitude x.rank * magnitude y.rank) (x * y).rank := by
  have hmul : x * y = ofRatio (x.negative != y.negative) (units x.rank * units y.rank)
      (unitsPerOne * unitsPerOne) := by
    change mul x y = _
    rw [mul, isNaN_of_isFinite hx, isNaN_of_isFinite hy, isInfinite_of_isFinite hx,
      isInfinite_of_isFinite hy]
    rfl
  have hproduct : magnitude x.rank * magnitude y.rank =
      (units x.rank * units y.rank : Nat) / (unitsPerOne * unitsPerOne : Nat) := by
    rw [magnitude, magnitude, div_mul_div_comm, Nat.cast_mul, Nat.cast_mul]
  rw [hproduct] at h ⊢
  obtain ⟨hlt, hrank⟩ :=
    nearestRank_rankOfRatio_of_le (Nat.mul_pos unitsPerOne_pos unitsPerOne_pos) h
  rw [hmul]
  exact ⟨rfl, decide_eq_true hlt, hrank⟩

end MethodSurvey.Binary64
