import MethodSurvey.Percentage
import MethodSurvey.Proofs.Numeric.Arithmetic

/-! The roundings behind a percentage: of the two counts, of their quotient and of its
hundredfold. Each keeps the order of what it rounds, and so do all together. -/

namespace MethodSurvey.Percentage

open Binary64

/-- The ranks that the counts `n` of `d` go through on the way to their percentage. -/
structure Steps (n d part whole quotient percentage : Nat) : Prop where
  nearest_part : NearestRank n part
  nearest_whole : NearestRank d whole
  nearest_quotient : NearestRank (magnitude part / magnitude whole) quotient
  nearest_percentage : NearestRank (magnitude quotient * 100) percentage

theorem one_le_magnitude {n rank : Nat} (h : NearestRank n rank) (hn : 0 < n) :
    1 ≤ magnitude rank := by
  obtain ⟨one, hone⟩ := exists_magnitude_eq (n := 1) (by decide)
  have hle : magnitude one ≤ n := by
    rw [hone]
    exact_mod_cast hn
  have hrank := (NearestRank.of_magnitude one).mono hle h
  rw [Nat.cast_one] at hone
  exact hone ▸ strictMono_magnitude.monotone hrank

/-- The least normal number is far below every share of counts. -/
theorem magnitude_binade_le : magnitude binade ≤ 1 / 2 ^ 65 := by
  have hunits : units binade * 2 ^ 65 ≤ unitsPerOne := by decide +kernel
  rw [magnitude, div_le_div_iff₀ unitsPerOne_cast_pos (by positivity), one_mul]
  exact_mod_cast hunits

namespace Steps

variable {n d part whole quotient percentage : Nat} {n' d' part' whole' quotient' percentage' : Nat}

/-- A greater part of a smaller whole has no smaller percentage. -/
theorem mono (hn : n ≤ n') (hd : d' ≤ d) (hpos : 0 < d')
    (h : Steps n d part whole quotient percentage)
    (h' : Steps n' d' part' whole' quotient' percentage') : percentage ≤ percentage' := by
  have hpart : magnitude part ≤ magnitude part' :=
    strictMono_magnitude.monotone (h.nearest_part.mono (by exact_mod_cast hn) h'.nearest_part)
  have hwhole : magnitude whole' ≤ magnitude whole :=
    strictMono_magnitude.monotone (h'.nearest_whole.mono (by exact_mod_cast hd) h.nearest_whole)
  have hwhole_pos : 0 < magnitude whole' :=
    zero_lt_one.trans_le (one_le_magnitude h'.nearest_whole hpos)
  have hratio : magnitude part / magnitude whole ≤ magnitude part' / magnitude whole' :=
    div_le_div₀ (magnitude_nonneg part') hpart hwhole_pos hwhole
  have hquotient : magnitude quotient ≤ magnitude quotient' :=
    strictMono_magnitude.monotone (h.nearest_quotient.mono hratio h'.nearest_quotient)
  have hproduct : magnitude quotient * 100 ≤ magnitude quotient' * 100 :=
    mul_le_mul_of_nonneg_right hquotient (by norm_num)
  exact h.nearest_percentage.mono hproduct h'.nearest_percentage

theorem unique (hpos : 0 < d) (h : Steps n d part whole quotient percentage)
    (h' : Steps n d part' whole' quotient' percentage') : percentage = percentage' :=
  Nat.le_antisymm (h.mono le_rfl le_rfl hpos h') (h'.mono le_rfl le_rfl hpos h)

/-- All of the whole is a hundred percent, without any error. -/
theorem exists_of_self (hpos : 0 < d) (hwhole : NearestRank d whole) :
    ∃ one hundred, magnitude hundred = 100 ∧ Steps d d whole whole one hundred := by
  obtain ⟨one, hone⟩ := exists_magnitude_eq (n := 1) (by decide)
  obtain ⟨hundred, hhundred⟩ := exists_magnitude_eq (n := 100) (by decide)
  have hwhole_pos : magnitude whole ≠ 0 :=
    (zero_lt_one.trans_le (one_le_magnitude hwhole hpos)).ne'
  rw [Nat.cast_one] at hone
  rw [Nat.cast_ofNat] at hhundred
  refine ⟨one, hundred, hhundred, hwhole, hwhole, ?_, ?_⟩
  · rw [div_self hwhole_pos, ← hone]
    exact .of_magnitude one
  · rw [hone, one_mul, ← hhundred]
    exact .of_magnitude hundred

theorem of_zero (hwhole : NearestRank d whole) : Steps 0 d 0 whole 0 0 := by
  have hzero := NearestRank.of_magnitude 0
  rw [magnitude_zero] at hzero
  refine ⟨?_, hwhole, ?_, ?_⟩
  · rwa [Nat.cast_zero]
  · rwa [magnitude_zero, zero_div]
  · rwa [magnitude_zero, zero_mul]

theorem magnitude_le_hundred (hn : n ≤ d) (hpos : 0 < d)
    (h : Steps n d part whole quotient percentage) : magnitude percentage ≤ 100 := by
  obtain ⟨_, hundred, hhundred, hself⟩ := exists_of_self hpos h.nearest_whole
  exact hhundred ▸ strictMono_magnitude.monotone (h.mono hn le_rfl hpos hself)

theorem magnitude_eq_hundred (hpos : 0 < d) (h : Steps d d part whole quotient percentage) :
    magnitude percentage = 100 := by
  obtain ⟨_, hundred, hhundred, hself⟩ := exists_of_self hpos h.nearest_whole
  rw [h.unique hpos hself, hhundred]

theorem magnitude_whole_le (hpos : 0 < d) (h : NearestRank d whole) :
    magnitude whole ≤ 2 * d := by
  have hone : (1 : ℚ) ≤ d := by exact_mod_cast hpos
  have hbinade : magnitude binade ≤ d :=
    (magnitude_binade_le.trans (div_le_one_of_le₀ (by norm_num) (by positivity))).trans hone
  obtain ⟨-, hhigh⟩ := abs_le.mp (h.error_of_normal hbinade)
  have hsmall : (d : ℚ) / 2 ^ 53 ≤ d := div_le_self (by linarith) (by norm_num)
  linarith

/-- No part of a count of 64 bits is lost below the least number. -/
theorem percentage_pos (hn : 0 < n) (hpos : 0 < d) (hd : d < 2 ^ 64)
    (h : Steps n d part whole quotient percentage) : 0 < percentage := by
  have hpart := one_le_magnitude h.nearest_part hn
  have hwhole := one_le_magnitude h.nearest_whole hpos
  have hlimit : (d : ℚ) ≤ 2 ^ 64 := by exact_mod_cast hd.le
  have hwhole_le : magnitude whole ≤ 2 ^ 65 := by
    linarith [magnitude_whole_le hpos h.nearest_whole]
  have hratio : magnitude binade ≤ magnitude part / magnitude whole :=
    calc magnitude binade ≤ 1 / 2 ^ 65 := magnitude_binade_le
      _ ≤ 1 / magnitude whole := one_div_le_one_div_of_le (by linarith) hwhole_le
      _ ≤ magnitude part / magnitude whole := div_le_div_of_nonneg_right hpart (by linarith)
  have hquotient : magnitude binade ≤ magnitude quotient :=
    strictMono_magnitude.monotone ((NearestRank.of_magnitude binade).mono hratio h.nearest_quotient)
  have hproduct : magnitude binade ≤ magnitude quotient * 100 := by
    linarith [magnitude_nonneg quotient]
  exact binade_pos.trans_le ((NearestRank.of_magnitude binade).mono hproduct h.nearest_percentage)

theorem magnitude_eq_zero_iff (hpos : 0 < d) (hd : d < 2 ^ 64)
    (h : Steps n d part whole quotient percentage) : magnitude percentage = 0 ↔ n = 0 := by
  constructor
  · intro hzero
    by_contra hn
    have hpercentage := strictMono_magnitude (h.percentage_pos (Nat.pos_of_ne_zero hn) hpos hd)
    rw [magnitude_zero, hzero] at hpercentage
    exact lt_irrefl _ hpercentage
  · rintro rfl
    rw [h.unique hpos (of_zero h.nearest_whole), magnitude_zero]

end Steps

/-- The percentage of counts is a number, and no operation on the way to it fails. -/
theorem exists_steps {n d : Nat} (hn : n ≤ d) (hpos : 0 < d) (hd : d ≤ 2 ^ 64) :
    ∃ p : Binary64, ({ declarations := d, nonConforming := n } : Totals).percentage? = some p ∧
      p.negative = false ∧ p.isFinite = true ∧
      ∃ quotient, Steps n d (ofNat n).rank (ofNat d).rank quotient p.rank := by
  have hlarge : (2 : Nat) ^ 64 ≤ 2 ^ 128 := Nat.pow_le_pow_right two_pos (by decide)
  obtain ⟨hpart_finite, hpart⟩ := nearestRank_ofNat ((hn.trans hd).trans hlarge)
  obtain ⟨hwhole_finite, hwhole⟩ := nearestRank_ofNat (hd.trans hlarge)
  have hwhole_pos : 0 < magnitude (ofNat d).rank :=
    zero_lt_one.trans_le (one_le_magnitude hwhole hpos)
  have hne : (ofNat d).rank ≠ 0 := fun hzero => by
    rw [hzero, magnitude_zero] at hwhole_pos
    exact lt_irrefl _ hwhole_pos
  have hratio : magnitude (ofNat n).rank / magnitude (ofNat d).rank ≤ 1 :=
    (div_le_one hwhole_pos).mpr
      (strictMono_magnitude.monotone (hpart.mono (by exact_mod_cast hn) hwhole))
  obtain ⟨hsign, hquotient_finite, hquotient⟩ :=
    nearestRank_div hpart_finite hwhole_finite hne (hratio.trans (by norm_num))
  obtain ⟨one, hone⟩ := exists_magnitude_eq (n := 1) (by decide)
  rw [Nat.cast_one] at hone
  have hle : magnitude (ofNat n / ofNat d).rank ≤ 1 := hone ▸ strictMono_magnitude.monotone
    (hquotient.mono (hone ▸ hratio) (.of_magnitude one))
  have hmul := nearestRank_mul hquotient_finite (nearestRank_ofNat (n := 100) (by decide +kernel)).1
  rw [magnitude_ofNat (n := 100) (by decide), Nat.cast_ofNat] at hmul
  obtain ⟨hsign', hfinite, hpercentage⟩ := hmul (by linarith)
  refine ⟨_, if_neg hpos.ne', ?_, hfinite, _, hpart, hwhole, hquotient, hpercentage⟩
  rw [hsign', hsign]
  rfl

end MethodSurvey.Percentage
