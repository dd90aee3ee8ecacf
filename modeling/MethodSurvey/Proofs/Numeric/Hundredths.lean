import Mathlib.Tactic.Ring
import MethodSurvey.Numeric.Places
import MethodSurvey.Proofs.Numeric.NearestRank

/-! Hundredths of a number and the number nearest to them. The way there and back may change
the number, but a second way changes nothing more. -/

namespace MethodSurvey.Binary64

theorem nearestNat_hundredths (rank : Nat) :
    NearestNat (100 * magnitude rank) (hundredths rank) := by
  have h := nearestNat_roundDiv (units rank * 100) unitsPerOne_pos
  have hquotient : ((units rank * 100 : Nat) : ℚ) / unitsPerOne = 100 * magnitude rank := by
    rw [magnitude, ← mul_div_assoc, mul_comm]
    push_cast
    rfl
  rwa [hquotient] at h

theorem magnitude_pred_infinityRank_add_one_le :
    magnitude (infinityRank - 1) + 1 ≤ magnitude infinityRank := by
  have hunits : units (infinityRank - 1) + unitsPerOne ≤ units infinityRank := by decide +kernel
  have hpos := unitsPerOne_cast_pos
  rw [magnitude, magnitude, div_add_one hpos.ne']
  refine div_le_div_of_nonneg_right ?_ hpos.le
  exact_mod_cast hunits

/-- The number nearest to the hundredths of a finite number has the same hundredths: it is
no further from them than the number they were taken from. -/
theorem hundredths_rankOfRatio {rank : Nat} (hfinite : rank < infinityRank) :
    rankOfRatio (hundredths rank) 100 < infinityRank ∧
      hundredths (rankOfRatio (hundredths rank) 100) = hundredths rank := by
  have hnear := nearestNat_hundredths rank
  obtain ⟨hlow, hhigh⟩ := abs_le.mp hnear.near
  have hgreatest := strictMono_magnitude.monotone (Nat.le_sub_one_of_lt hfinite)
  have hinfinity := magnitude_pred_infinityRank_add_one_le
  obtain ⟨hlt, hrank⟩ : rankOfRatio (hundredths rank) 100 < infinityRank ∧
      NearestRank ((hundredths rank : ℚ) / 100) (rankOfRatio (hundredths rank) 100) := by
    have h := @nearestRank_rankOfRatio (hundredths rank) 100 (by decide)
    rw [Nat.cast_ofNat] at h
    exact h (by linarith)
  refine ⟨hlt, ?_⟩
  have hcloser := hrank.near rank
  have hscale (r : Nat) : |100 * magnitude r - hundredths rank| =
      100 * |magnitude r - hundredths rank / 100| := by
    have hfactor : 100 * magnitude r - hundredths rank =
        100 * (magnitude r - hundredths rank / 100) := by ring
    rw [hfactor, abs_mul, abs_of_pos (by norm_num)]
  have hdistance : |100 * magnitude (rankOfRatio (hundredths rank) 100) - hundredths rank| ≤
      |100 * magnitude rank - hundredths rank| := by
    rw [hscale, hscale]
    linarith
  have hthere : NearestNat (100 * magnitude (rankOfRatio (hundredths rank) 100))
      (hundredths rank) :=
    ⟨hdistance.trans hnear.near,
      fun h => hnear.even (le_antisymm hnear.near (h ▸ hdistance))⟩
  exact (nearestNat_hundredths _).unique hthere

end MethodSurvey.Binary64
