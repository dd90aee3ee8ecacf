import Mathlib.Tactic.FieldSimp
import MethodSurvey.Proofs.Numeric.Magnitude
import MethodSurvey.Proofs.Numeric.NearestNat

/-! The rank nearest to a quotient, the even one of two that are equally near. Rounding keeps
the order of quotients, and above the least normal number it changes a quotient by its 2^53rd
part at most. -/

namespace MethodSurvey.Binary64

/-- A rank whose magnitude is the nearest one: the quotient lies between the middles towards
the two neighbours, and in a middle only if the rank is even. -/
structure NearestRank (x : ℚ) (rank : Nat) : Prop where
  low : magnitude (rank - 1) + magnitude rank ≤ 2 * x
  high : 2 * x ≤ magnitude rank + magnitude (rank + 1)
  even_of_low : magnitude (rank - 1) + magnitude rank = 2 * x → rank % 2 = 0
  even_of_high : 2 * x = magnitude rank + magnitude (rank + 1) → rank % 2 = 0

namespace NearestRank

variable {x y : ℚ} {rank rank' : Nat}

theorem mono (hxy : x ≤ y) (h : NearestRank x rank) (h' : NearestRank y rank') :
    rank ≤ rank' := by
  by_contra hlt
  have hbelow : rank' ≤ rank - 1 := by omega
  have hsucc : rank' + 1 ≤ rank := by omega
  have hmiddle := strictMono_magnitude.monotone hbelow
  have hmiddle' := strictMono_magnitude.monotone hsucc
  have hlow := h.low
  have hhigh := h'.high
  -- No room is left: the two are neighbours, and both quotients lie in the middle.
  have heven := h.even_of_low (by linarith)
  have heven' := h'.even_of_high (by linarith)
  have hnext : rank' + 1 = rank := strictMono_magnitude.injective (by linarith)
  omega

theorem unique (h : NearestRank x rank) (h' : NearestRank x rank') : rank = rank' :=
  Nat.le_antisymm (h.mono le_rfl h') (h'.mono le_rfl h)

theorem of_magnitude (rank : Nat) : NearestRank (magnitude rank) rank := by
  have hsucc := strictMono_magnitude (Nat.lt_succ_self rank)
  rcases Nat.eq_zero_or_pos rank with rfl | hpos
  · exact ⟨by linarith, by linarith, fun _ => rfl, fun _ => rfl⟩
  · have hpred := strictMono_magnitude (Nat.sub_one_lt_of_lt hpos)
    exact ⟨by linarith, by linarith, fun h => absurd h (by linarith),
      fun h => absurd h (by linarith)⟩

theorem near (h : NearestRank x rank) (other : Nat) :
    |magnitude rank - x| ≤ |magnitude other - x| := by
  have hlow := h.low
  have hhigh := h.high
  rcases lt_trichotomy other rank with hlt | rfl | hgt
  · have hother := strictMono_magnitude.monotone (Nat.le_sub_one_of_lt hlt)
    have hless := strictMono_magnitude hlt
    have hdistance := neg_abs_le (magnitude other - x)
    exact abs_le.mpr ⟨by linarith, by linarith⟩
  · exact le_rfl
  · have hother := strictMono_magnitude.monotone (Nat.succ_le_of_lt hgt)
    have hless := strictMono_magnitude hgt
    have hdistance := le_abs_self (magnitude other - x)
    exact abs_le.mpr ⟨by linarith, by linarith⟩

theorem error_of_normal (h : NearestRank x rank) (hx : magnitude binade ≤ x) :
    |magnitude rank - x| ≤ x / 2 ^ 53 := by
  have hlow := h.low
  have hhigh := h.high
  have hrank : binade ≤ rank := (of_magnitude binade).mono hx h
  rcases le_total (magnitude rank) x with hle | hle
  · have hstep := magnitude_succ_sub_le hrank
    rw [abs_of_nonpos (by linarith)]
    linarith
  · rcases Nat.eq_or_lt_of_le hrank with heq | hlt
    · rw [heq] at hx
      rw [le_antisymm hle hx, sub_self, abs_zero]
      exact div_nonneg (magnitude_nonneg rank) (by positivity)
    · have hpred : rank - 1 + 1 = rank := by omega
      have hstep := magnitude_succ_sub_le (show binade ≤ rank - 1 by omega)
      rw [hpred] at hstep
      rw [abs_of_nonneg (by linarith)]
      have hless := strictMono_magnitude (show rank - 1 < rank by omega)
      linarith

theorem error_le (h : NearestRank x rank) (hx : x = 0 ∨ magnitude binade ≤ x) :
    |magnitude rank - x| ≤ x / 2 ^ 53 := by
  rcases hx with rfl | hx
  · have hnear := h.near 0
    rw [magnitude_zero, sub_self, abs_zero] at hnear
    rwa [zero_div]
  · exact h.error_of_normal hx

end NearestRank

/-- The rank nearest to a quotient among all ranks, those that are no numbers included. -/
def unboundedRank (num den : Nat) : Nat :=
  let scaled := num * unitsPerOne
  let shift := (scaled / den).log2 - 52
  shift * binade + roundDiv scaled (den <<< shift)

theorem rankOfRatio_eq (num den : Nat) :
    rankOfRatio num den = min infinityRank (unboundedRank num den) := rfl

theorem log2_bounds (a : Nat) {d : Nat} (hd : 0 < d) :
    let shift := (a / d).log2 - 52
    a < (d <<< shift) * (2 * binade) ∧ (shift = 0 ∨ (d <<< shift) * binade ≤ a) := by
  intro shift
  have hbinade : binade = 2 ^ 52 := by decide
  rw [Nat.shiftLeft_eq, hbinade, ← Nat.pow_succ', Nat.mul_assoc, Nat.mul_assoc, ← Nat.pow_add,
    ← Nat.pow_add, Nat.mul_comm d]
  constructor
  · rw [← Nat.div_lt_iff_lt_mul hd]
    refine Nat.lt_log2_self.trans_le (Nat.pow_le_pow_right two_pos ?_)
    omega
  · by_cases hshift : shift = 0
    · exact .inl hshift
    · right
      have hne : a / d ≠ 0 := by
        intro hzero
        simp [shift, hzero] at hshift
      have hpower : shift + 52 = (a / d).log2 := by omega
      rw [Nat.mul_comm d, ← Nat.le_div_iff_mul_le hd, hpower]
      exact Nat.log2_self_le hne

section Place

variable {shift m : Nat} {steps : ℚ}

theorem place_of_nearestNat (h : NearestNat steps m) (hsteps : steps < 2 * binade)
    (hs : shift = 0 ∨ binade ≤ steps) : m ≤ 2 * binade ∧ (shift = 0 ∨ binade ≤ m) := by
  refine ⟨h.mono hsteps.le ?_, hs.imp_right fun hs => (nearestNat_cast binade).mono hs h⟩
  exact_mod_cast nearestNat_cast (2 * binade)

/-- A middle is half a step away, so a quotient reaches it only where the integer is even. -/
theorem even_of_half_step (h : NearestNat steps m) {half : ℚ} (hhalf : |half| = 1 / 2)
    (he : (steps - m) * step shift = half * step shift) : (shift * binade + m) % 2 = 0 := by
  have hm := h.even (mul_right_cancel₀ (step_pos shift).ne' he ▸ hhalf)
  rw [binade_eq]
  omega

theorem middle_above (h : NearestNat steps m) (hm : m ≤ 2 * binade)
    (hs : shift = 0 ∨ binade ≤ m) :
    let rank := shift * binade + m
    2 * (steps * step shift) ≤ magnitude rank + magnitude (rank + 1) ∧
      (2 * (steps * step shift) = magnitude rank + magnitude (rank + 1) → rank % 2 = 0) := by
  intro rank
  have hself := magnitude_add hm hs
  have hnext := le_magnitude_succ hm hs
  have hbound := mul_le_mul_of_nonneg_right (abs_le.mp h.near).2 (step_pos shift).le
  exact ⟨by linarith, fun he => even_of_half_step h (abs_of_pos one_half_pos) (by linarith)⟩

theorem middle_below (h : NearestNat steps m) (hm : m ≤ 2 * binade)
    (hs : shift = 0 ∨ binade ≤ m) (hnonneg : 0 ≤ steps) (hlow : shift = 0 ∨ binade ≤ steps) :
    let rank := shift * binade + m
    magnitude (rank - 1) + magnitude rank ≤ 2 * (steps * step shift) ∧
      (magnitude (rank - 1) + magnitude rank = 2 * (steps * step shift) → rank % 2 = 0) := by
  intro rank
  have hself : magnitude rank = m * step shift := magnitude_add hm hs
  have hbound := mul_le_mul_of_nonneg_right (abs_le.mp h.near).1 (step_pos shift).le
  by_cases hfirst : rank = 0
  · have hzero : magnitude (rank - 1) + magnitude rank = 0 := by
      rw [hfirst, Nat.zero_sub, magnitude_zero, add_zero]
    have hquotient := mul_nonneg hnonneg (step_pos shift).le
    exact ⟨by linarith, fun _ => by rw [hfirst]⟩
  by_cases hinner : shift = 0 ∨ binade < m
  · have hm_pos : 1 ≤ m := by
      rcases hinner with rfl | hinner <;> omega
    have hpred : magnitude (rank - 1) = ((m : ℚ) - 1) * step shift := by
      rw [Nat.add_sub_assoc hm_pos, magnitude_add (by omega) (by omega), Nat.cast_pred hm_pos]
    have hhalf : |(-(1 / 2) : ℚ)| = 1 / 2 := (abs_neg _).trans (abs_of_pos one_half_pos)
    exact ⟨by linarith, fun he => even_of_half_step h hhalf (by linarith)⟩
  · -- The step before the first place of a binade is a smaller one, but the quotient is not below.
    obtain ⟨hshift, hplace⟩ := not_or.mp hinner
    have hmin : m = binade := by omega
    have hquotient := mul_le_mul_of_nonneg_right (hlow.resolve_left hshift) (step_pos shift).le
    have hpred := strictMono_magnitude (Nat.sub_one_lt hfirst)
    rw [← hmin] at hquotient
    exact ⟨by linarith, fun he => absurd he (by linarith)⟩

/-- A place in a binade is the nearest one if its number is the nearest integer to the quotient
counted in the steps of the binade. -/
theorem nearestRank_of_nearestNat (h : NearestNat steps m) (hnonneg : 0 ≤ steps)
    (hsteps : steps < 2 * binade) (hs : shift = 0 ∨ binade ≤ steps) :
    NearestRank (steps * step shift) (shift * binade + m) := by
  obtain ⟨hm, hplace⟩ := place_of_nearestNat h hsteps hs
  obtain ⟨hhigh, heven_high⟩ := middle_above h hm hplace
  obtain ⟨hlow, heven_low⟩ := middle_below h hm hplace hnonneg hs
  exact ⟨hlow, hhigh, heven_low, heven_high⟩

end Place

theorem nearestRank_unboundedRank (num : Nat) {den : Nat} (hden : 0 < den) :
    NearestRank (num / den) (unboundedRank num den) := by
  obtain ⟨hlt, hle⟩ := log2_bounds (num * unitsPerOne) hden
  rw [unboundedRank]
  generalize hscaled : num * unitsPerOne = scaled at hlt hle ⊢
  generalize (scaled / den).log2 - 52 = shift at hlt hle ⊢
  have hwidth : 0 < den <<< shift := by
    rw [Nat.shiftLeft_eq]
    positivity
  have hwidth_cast : (0 : ℚ) < (den <<< shift : Nat) := by exact_mod_cast hwidth
  have hquotient : (num : ℚ) / den = scaled / (den <<< shift : Nat) * step shift := by
    have hden_cast : (0 : ℚ) < den := by exact_mod_cast hden
    have hunits := unitsPerOne_cast_pos
    rw [step, Nat.shiftLeft_eq, ← hscaled]
    push_cast
    field_simp
  rw [hquotient]
  refine nearestRank_of_nearestNat (nearestNat_roundDiv _ hwidth)
    (div_nonneg (Nat.cast_nonneg _) hwidth_cast.le) ?_ ?_
  · rw [div_lt_iff₀ hwidth_cast, mul_comm]
    exact_mod_cast hlt
  · refine hle.imp_right fun hle => ?_
    rw [le_div_iff₀ hwidth_cast, mul_comm]
    exact_mod_cast hle

/-- Only the quotient counts, not the terms it is given in. -/
theorem rankOfRatio_congr {num den num' den' : Nat} (hden : 0 < den) (hden' : 0 < den')
    (h : (num : ℚ) / den = num' / den') : rankOfRatio num den = rankOfRatio num' den' := by
  have hrank := nearestRank_unboundedRank num hden
  rw [h] at hrank
  rw [rankOfRatio_eq, rankOfRatio_eq, hrank.unique (nearestRank_unboundedRank num' hden')]

/-- A quotient below the middle between the greatest finite number and the next magnitude
rounds to a finite number. -/
theorem nearestRank_rankOfRatio {num den : Nat} (hden : 0 < den)
    (h : 2 * ((num : ℚ) / den) < magnitude (infinityRank - 1) + magnitude infinityRank) :
    rankOfRatio num den < infinityRank ∧ NearestRank (num / den) (rankOfRatio num den) := by
  have hrank := nearestRank_unboundedRank num hden
  have hlt : unboundedRank num den < infinityRank := by
    by_contra hle
    have hge := Nat.le_of_not_lt hle
    have hpred := strictMono_magnitude.monotone (Nat.sub_le_sub_right hge 1)
    have hself := strictMono_magnitude.monotone hge
    have hlow := hrank.low
    linarith
  rw [rankOfRatio_eq, Nat.min_eq_right hlt.le]
  exact ⟨hlt, hrank⟩

end MethodSurvey.Binary64
