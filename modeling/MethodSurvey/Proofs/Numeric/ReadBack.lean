import MethodSurvey.Proofs.Numeric.Notation

/-! The decimal that is written for a finite number reads back to it: whatever digits are kept,
their value rounds to the rank that they were found for. -/

namespace MethodSurvey.Binary64

open Numeral (tenTo)

theorem ten_zpow_eq (e : Int) : (10 : ℚ) ^ e = (tenTo e.toNat : ℚ) / tenTo (-e).toNat := by
  obtain ⟨n, rfl | rfl⟩ := e.eq_nat_or_neg
  · simp [tenTo]
  · simp [tenTo]

namespace Decimal

def toRat (d : Decimal) : ℚ := d.digits * 10 ^ d.exponent

theorem toRat_eq_div (d : Decimal) :
    d.toRat = (d.digits * tenTo d.exponent.toNat : Nat) / (tenTo (-d.exponent).toNat : Nat) := by
  rw [toRat, ten_zpow_eq, ← mul_div_assoc]
  push_cast
  rfl

theorem toRat_strip (fuel : Nat) (d : Decimal) : (d.strip fuel).toRat = d.toRat := by
  induction fuel generalizing d with
  | zero => rfl
  | succ fuel ih =>
    rw [strip]
    split_ifs with hzero
    · have hdigits : (d.digits : ℚ) = (d.digits / 10 : Nat) * 10 := by
        exact_mod_cast (Nat.div_mul_cancel (Nat.dvd_of_mod_eq_zero hzero)).symm
      rw [ih, toRat, toRat, hdigits, zpow_add_one₀ (by norm_num), mul_assoc, mul_comm (10 : ℚ)]
    · rfl

end Decimal

section Middles

variable {i j num den : Nat}

theorem magnitudes_le_iff (hden : 0 < den) :
    magnitude i + magnitude j ≤ 2 * ((num : ℚ) / den) ↔
      (units i + units j) * den ≤ num * (2 * unitsPerOne) := by
  have hpos : (0 : ℚ) < den := by exact_mod_cast hden
  rw [magnitude, magnitude, ← add_div, ← mul_div_assoc, div_le_div_iff₀ unitsPerOne_cast_pos hpos,
    mul_comm 2 (num : ℚ), mul_assoc]
  exact_mod_cast Iff.rfl

theorem le_magnitudes_iff (hden : 0 < den) :
    2 * ((num : ℚ) / den) ≤ magnitude i + magnitude j ↔
      num * (2 * unitsPerOne) ≤ (units i + units j) * den := by
  have hpos : (0 : ℚ) < den := by exact_mod_cast hden
  rw [magnitude, magnitude, ← add_div, ← mul_div_assoc, div_le_div_iff₀ hpos unitsPerOne_cast_pos,
    mul_comm 2 (num : ℚ), mul_assoc]
  exact_mod_cast Iff.rfl

end Middles

theorem nearestRank_of_roundsTo {rank : Nat} {d : Decimal} (h : roundsTo rank d = true) :
    NearestRank d.toRat rank := by
  have hden := tenTo_pos (-d.exponent).toNat
  rw [d.toRat_eq_div]
  simp only [roundsTo] at h
  split_ifs at h with heven
  · obtain ⟨hlow, hhigh⟩ := (Bool.and_eq_true _ _).mp h
    exact ⟨(magnitudes_le_iff hden).mpr (of_decide_eq_true hlow),
      (le_magnitudes_iff hden).mpr (of_decide_eq_true hhigh), fun _ => heven, fun _ => heven⟩
  · obtain ⟨hlow, hhigh⟩ := (Bool.and_eq_true _ _).mp h
    have hlow := of_decide_eq_true hlow
    have hhigh := of_decide_eq_true hhigh
    -- An odd rank is not rounded to from a middle.
    refine ⟨(magnitudes_le_iff hden).mpr hlow.le, (le_magnitudes_iff hden).mpr hhigh.le,
      fun he => ?_, fun he => ?_⟩
    · exact absurd ((le_magnitudes_iff hden).mp he.ge) hlow.not_ge
    · exact absurd ((magnitudes_le_iff hden).mp he.ge) hhigh.not_ge

theorem toRat_exact {n unit digits : Nat} {e : Int} (hunit : unit = 1 <<< n) (he : e = -n) :
    (⟨digits * (tenTo n / unit), e⟩ : Decimal).toRat = digits / unit := by
  rw [Nat.one_shiftLeft] at hunit
  have hdvd : unit ∣ tenTo n := hunit ▸ pow_dvd_pow_of_dvd (by decide) n
  have hpos : (unit : ℚ) ≠ 0 := by
    rw [hunit]
    positivity
  have hten : ((tenTo n / unit : Nat) : ℚ) * unit = 10 ^ n := by
    exact_mod_cast Nat.div_mul_cancel hdvd
  rw [Decimal.toRat, he, zpow_neg, zpow_natCast, Nat.cast_mul, eq_div_iff hpos, mul_right_comm,
    mul_assoc (digits : ℚ), hten, mul_inv_cancel_right₀ (by positivity)]

theorem nearestRank_shortestDecimal (rank : Nat) :
    NearestRank (shortestDecimal rank).toRat rank := by
  rw [shortestDecimal, Decimal.toRat_strip]
  cases hfound : (List.range 17).findSome? fun (n : Nat) =>
      nearest? rank (leadingExponent rank - n) with
  | some d =>
    obtain ⟨n, -, hn⟩ := List.exists_of_findSome?_eq_some hfound
    exact nearestRank_of_roundsTo (roundsTo_of_nearest? hn)
  | none =>
    have hexact : (⟨units rank * (tenTo 1074 / unitsPerOne), -1074⟩ : Decimal).toRat =
        magnitude rank := toRat_exact unitsPerOne.eq_1 (by norm_num)
    rw [Option.getD_none, hexact]
    exact .of_magnitude rank

theorem rankOfRatio_of_nearestRank {num den rank : Nat} (hden : 0 < den)
    (h : NearestRank (num / den) rank) (hrank : rank < infinityRank) :
    rankOfRatio num den = rank := by
  rw [rankOfRatio_eq, (nearestRank_unboundedRank num hden).unique h, Nat.min_eq_right hrank.le]

theorem nearest_of_nearestRank {x : Scientific} {rank : Nat}
    (h : NearestRank (x.digits * 10 ^ x.exponent) rank) (hrank : rank < infinityRank) :
    x.nearest = ⟨x.negative, rank⟩ := by
  rw [show (x.digits : ℚ) * 10 ^ x.exponent = Decimal.toRat ⟨x.digits, x.exponent⟩ from rfl,
    Decimal.toRat_eq_div] at h
  rw [Scientific.nearest, ofRatio, rankOfRatio_of_nearestRank (tenTo_pos _) h hrank]

theorem digits_scientific (negative : Bool) (d : Decimal) :
    ((Json.scientific negative d).digits : ℚ) * 10 ^ (Json.scientific negative d).exponent =
      d.toRat := by
  rw [Json.scientific]
  split_ifs with hwhole
  · obtain ⟨hexponent, -⟩ := hwhole
    obtain ⟨n, hn⟩ := Int.eq_ofNat_of_zero_le hexponent
    have hten : (tenTo (n + 1) : ℚ) = 10 ^ n * 10 := by exact_mod_cast pow_succ 10 n
    rw [Decimal.toRat, hn, Int.toNat_natCast, zpow_natCast, zpow_neg_one, Nat.cast_mul, hten,
      mul_assoc, mul_inv_cancel_right₀ (by norm_num)]
  · rfl

theorem negative_scientific (negative : Bool) (d : Decimal) :
    (Json.scientific negative d).negative = negative := by
  rw [Json.scientific]
  split_ifs <;> rfl

/-- The text of a finite number reads back to it, its sign included. -/
theorem nearest_value_real {x : Binary64} (h : x.isFinite = true) :
    (Json.Lexeme.real x).value.nearest = x := by
  have hrank : x.rank < infinityRank := of_decide_eq_true h
  rw [Json.Lexeme.value_real]
  split_ifs with hzero
  · have hvalue : NearestRank (((0 : Nat) : ℚ) * 10 ^ (-1 : Int)) x.rank := by
      rw [Nat.cast_zero, zero_mul, ← magnitude_zero, hzero]
      exact .of_magnitude 0
    exact nearest_of_nearestRank hvalue hrank
  · have hvalue := nearestRank_shortestDecimal x.rank
    rw [← digits_scientific x.negative] at hvalue
    rw [nearest_of_nearestRank hvalue hrank, negative_scientific]

end MethodSurvey.Binary64
