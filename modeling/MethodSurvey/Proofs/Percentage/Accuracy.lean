import MethodSurvey.Proofs.Percentage.Rounded
import MethodSurvey.Proofs.Percentage.Steps

/-! How near the printed percentage is to the share of the counts. The quotient and the product
are rounded, but no share of counts up to 2^32 lies so close to a middle between two
hundredths that this error takes it to the other side. -/

namespace MethodSurvey.Percentage

open Binary64

variable {n d : Nat}

/-- No share is between zero and the least normal number. -/
theorem share_zero_or_normal (hpos : 0 < d) (hd : d ≤ 2 ^ 32) :
    (n : ℚ) / d = 0 ∨ magnitude binade ≤ n / d := by
  rcases Nat.eq_zero_or_pos n with rfl | hn
  · exact .inl (by rw [Nat.cast_zero, zero_div])
  · right
    have hd_pos : (0 : ℚ) < d := by exact_mod_cast hpos
    have hone : (1 : ℚ) ≤ n := by exact_mod_cast hn
    have hlimit : (d : ℚ) ≤ 2 ^ 32 := by exact_mod_cast hd
    calc magnitude binade ≤ 1 / 2 ^ 65 := magnitude_binade_le
      _ ≤ 1 / d := one_div_le_one_div_of_le hd_pos (hlimit.trans (by norm_num))
      _ ≤ n / d := div_le_div_of_nonneg_right hone hd_pos.le

/-- Up to 2^32 the counts are numbers themselves, so only the quotient and the product of a
percentage are rounded. -/
theorem exists_percentage (hn : n ≤ d) (hpos : 0 < d) (hd : d ≤ 2 ^ 32) :
    ∃ (quotient : Nat) (percentage : Binary64),
      (Totals.mk d n).percentage? = some percentage ∧
      percentage.negative = false ∧ percentage.isFinite = true ∧
      NearestRank (n / d) quotient ∧ NearestRank (magnitude quotient * 100) percentage.rank := by
  obtain ⟨percentage, hp, hsign, hfinite, quotient, hsteps⟩ :=
    exists_steps hn hpos (hd.trans (by decide))
  have hexact {k : Nat} (hk : k ≤ 2 ^ 32) : magnitude (ofNat k).rank = k :=
    magnitude_ofNat (by omega)
  have hquotient := hsteps.nearest_quotient
  rw [hexact (hn.trans hd), hexact hd] at hquotient
  exact ⟨quotient, percentage, hp, hsign, hfinite, hquotient, hsteps.nearest_percentage⟩

theorem percentage_error {x : ℚ} {quotient percentage : Nat}
    (hx : x = 0 ∨ magnitude binade ≤ x) (hquotient : NearestRank x quotient)
    (hpercentage : NearestRank (magnitude quotient * 100) percentage) :
    |magnitude percentage - 100 * x| ≤ 300 * x / 2 ^ 53 := by
  have herror := hquotient.error_le hx
  have hquotient_normal : magnitude quotient * 100 = 0 ∨
      magnitude binade ≤ magnitude quotient * 100 := by
    rcases hx with rfl | hx
    · left
      rw [sub_zero, zero_div, abs_nonpos_iff] at herror
      rw [herror, zero_mul]
    · right
      have hnormal := strictMono_magnitude.monotone ((NearestRank.of_magnitude _).mono hx hquotient)
      linarith [magnitude_nonneg quotient]
  have hnonneg : 0 ≤ x / 2 ^ 53 := (abs_nonneg _).trans herror
  obtain ⟨hlow, hhigh⟩ := abs_le.mp herror
  obtain ⟨hlow', hhigh'⟩ := abs_le.mp (hpercentage.error_le hquotient_normal)
  exact abs_le.mpr ⟨by linarith, by linarith⟩

/-- The distance of a hundredth from a share is an integer number of parts, each the share
of one half of a declaration. So it is one half at most if it is within a part of that. -/
theorem near_of_lt_half_add_part {hundredth : Nat} (hpos : 0 < d)
    (h : |(hundredth : ℚ) - 10000 * (n / d)| < 1 / 2 + 1 / (2 * d)) :
    |(hundredth : ℚ) - 10000 * (n / d)| ≤ 1 / 2 := by
  have hd_pos : (0 : ℚ) < d := by exact_mod_cast hpos
  let parts : ℤ := 2 * d * hundredth - 20000 * n
  have hparts : (parts : ℚ) = 2 * d * (hundredth - 10000 * (n / d)) := by
    simp only [parts]
    push_cast
    field_simp
    ring
  have hdistance : (|parts| : ℤ) = 2 * d * |(hundredth : ℚ) - 10000 * (n / d)| := by
    rw [Int.cast_abs, hparts, abs_mul, abs_of_pos (by positivity)]
  have hlt : (|parts| : ℤ) < (d : ℚ) + 1 := by
    have hwidth : 2 * (d : ℚ) * (1 / 2 + 1 / (2 * d)) = d + 1 := by field_simp
    rw [hdistance, ← hwidth]
    exact mul_lt_mul_of_pos_left h (by positivity)
  have hle : (|parts| : ℤ) ≤ (d : ℚ) := by
    exact_mod_cast Int.le_of_lt_add_one (by exact_mod_cast hlt)
  have hhalf : (d : ℚ) / (2 * d) = 1 / 2 := by field_simp
  rw [hdistance, ← le_div_iff₀' (by positivity)] at hle
  exact hle.trans_eq hhalf

theorem hundredths_near_share (hn : n ≤ d) (hpos : 0 < d) (hd : d ≤ 2 ^ 32)
    {quotient percentage : Nat} (hquotient : NearestRank (n / d) quotient)
    (hpercentage : NearestRank (magnitude quotient * 100) percentage) :
    |(hundredths percentage : ℚ) - 10000 * (n / d)| ≤ 1 / 2 := by
  have hd_pos : (0 : ℚ) < d := by exact_mod_cast hpos
  have hcount : (n : ℚ) ≤ 2 ^ 32 := by exact_mod_cast hn.trans hd
  have herror := percentage_error (share_zero_or_normal hpos hd) hquotient hpercentage
  have hsmall : 60000 * ((n : ℚ) / d) < 2 ^ 53 * (1 / d) := by
    rw [mul_div_assoc', mul_one_div]
    exact div_lt_div_of_pos_right (by linarith) hd_pos
  obtain ⟨hlow, hhigh⟩ := abs_le.mp (nearestNat_hundredths percentage).near
  obtain ⟨hlow', hhigh'⟩ := abs_le.mp herror
  have hpart : 1 / (2 * (d : ℚ)) = 1 / 2 * (1 / d) := by field_simp
  refine near_of_lt_half_add_part hpos (abs_lt.mpr ?_)
  rw [hpart]
  constructor <;> linarith

theorem le_of_half_step {x : ℚ} {n : Nat} (h : |(n : ℚ) - x| ≤ 1 / 2) (k : ℤ) :
    |(n : ℚ) - x| ≤ |(k : ℚ) - x| := by
  by_cases hk : k = n
  · rw [hk, Int.cast_natCast]
  · have hstep : (1 : ℤ) ≤ |k - n| := Int.one_le_abs (sub_ne_zero.mpr hk)
    have hapart : (1 : ℚ) ≤ |(k : ℚ) - n| := by exact_mod_cast hstep
    have htriangle := abs_sub_le (k : ℚ) x n
    rw [abs_sub_comm x] at htriangle
    linarith

/-- The printed percentage of up to 2^32 declarations is in hundredths, and no other number of
hundredths is nearer to the exact one. -/
theorem text_nearest_hundredth (hn : n ≤ d) (hpos : 1 ≤ d) (hd : d ≤ 2 ^ 32) :
    ∃ (percentage : Binary64) (printed : Scientific),
      ({ declarations := d, nonConforming := n } : Totals).percentage? = some percentage ∧
      Json.Grammar.number (text percentage) = some (printed, []) ∧
      (∃ k : ℕ, printed.toRat = (k : ℚ) / 100) ∧
      |printed.toRat - 100 * n / d| ≤ 1 / 200 ∧
      ∀ k : ℤ, |printed.toRat - 100 * n / d| ≤ |(k : ℚ) / 100 - 100 * n / d| := by
  obtain ⟨quotient, percentage, hp, hsign, hfinite, hquotient, hpercentage⟩ :=
    exists_percentage hn hpos hd
  have hnear := hundredths_near_share hn hpos hd hquotient hpercentage
  have hprinted : (fixed percentage).withoutZeros.value.toRat = hundredths percentage.rank / 100 := by
    rw [toRat_value_withoutZeros, hsign, if_neg Bool.false_ne_true, one_mul]
  have hread := Json.number_text (fixed percentage).withoutZeros Text.stops_nil
  rw [List.append_nil, ← trimmed_of_isFinite hfinite, ← text_eq_trimmed] at hread
  have hscale (x : ℚ) : |x / 100 - 100 * n / d| = |x - 10000 * (n / d)| / 100 := by
    have hfactor : x / 100 - 100 * n / d = (x - 10000 * (n / d)) / 100 := by ring
    rw [hfactor, abs_div, abs_of_pos (by norm_num : (0 : ℚ) < 100)]
  refine ⟨percentage, _, hp, hread, ⟨_, hprinted⟩, ?_, fun k => ?_⟩
  · rw [hprinted, hscale]
    linarith
  · rw [hprinted, hscale, hscale]
    exact div_le_div_of_nonneg_right (le_of_half_step hnear k) (by norm_num)

/-- One of 160 is in the middle between two hundredths, and the even one is printed. -/
theorem text_nearest_hundredth_of_middle :
    1 ≤ 160 ∧ 160 ≤ 2 ^ 32 ∧ ∃ printed : Scientific,
      Json.Grammar.number ['0', '.', '6', '2'] = some (printed, []) ∧
      |printed.toRat - 100 * (1 : ℕ) / (160 : ℕ)| ≤ 1 / 200 := by
  obtain ⟨percentage, printed, hp, hread, -, hnear, -⟩ :=
    text_nearest_hundredth (n := 1) (d := 160) (by decide) (by decide) (by decide)
  have htext : ({ declarations := 160, nonConforming := 1 } : Totals).percentage?.map text =
      some ['0', '.', '6', '2'] := by
    decide +kernel
  rw [hp, Option.map_some, Option.some.injEq] at htext
  exact ⟨by decide, by decide, printed, htext ▸ hread, hnear⟩

end MethodSurvey.Percentage
