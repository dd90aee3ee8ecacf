import MethodSurvey.Proofs.Percentage.Steps

/-! The range of a percentage and its order. Counts of 64 bits may be rounded before they are
divided, but no rounding takes a percentage out of its range or past another one. -/

namespace MethodSurvey.Percentage

open Binary64

variable {n d : Nat}

theorem toRat_of_percentage {p : Binary64} (hn : n ≤ d) (hpos : 0 < d) (hd : d ≤ 2 ^ 64)
    (h : ({ declarations := d, nonConforming := n } : Totals).percentage? = some p) :
    p.toRat = magnitude p.rank ∧
      ∃ quotient, Steps n d (ofNat n).rank (ofNat d).rank quotient p.rank := by
  obtain ⟨q, hq, hsign, -, hsteps⟩ := exists_steps hn hpos hd
  obtain rfl : q = p := Option.some.inj (hq.symm.trans h)
  exact ⟨toRat_of_not_negative hsign, hsteps⟩

/-- Fewer declarations that do not conform, or more declarations, give no greater percentage. -/
theorem toRat_le_of_le {m e : Nat} {p q : Binary64} (hn : n ≤ d) (hpos : 0 < d) (hm : m ≤ n)
    (he : d ≤ e) (hlimit : e ≤ 2 ^ 64)
    (hp : ({ declarations := d, nonConforming := n } : Totals).percentage? = some p)
    (hq : ({ declarations := e, nonConforming := m } : Totals).percentage? = some q) :
    q.toRat ≤ p.toRat := by
  obtain ⟨hp_toRat, _, hp_steps⟩ := toRat_of_percentage hn hpos (he.trans hlimit) hp
  obtain ⟨hq_toRat, _, hq_steps⟩ :=
    toRat_of_percentage ((hm.trans hn).trans he) (hpos.trans_le he) hlimit hq
  rw [hp_toRat, hq_toRat]
  exact strictMono_magnitude.monotone (hq_steps.mono hm he hpos hp_steps)

/-- The percentage of 64-bit counts is a finite number between 0 and 100. It is 0 only if all
declarations conform, and 100 if none does; it does not grow when fewer of the declarations
fail to conform or when there are more declarations. -/
theorem percentage_of_counts (hn : n ≤ d) (hpos : 1 ≤ d) (hd : d < 2 ^ 64) :
    ∃ p : Binary64, ({ declarations := d, nonConforming := n } : Totals).percentage? = some p ∧
      p.isFinite = true ∧ 0 ≤ p.toRat ∧ p.toRat ≤ 100 ∧
      (p.toRat = 0 ↔ n = 0) ∧ (n = d → p.toRat = 100) ∧
      ∀ m e, m ≤ n → d ≤ e → e < 2 ^ 64 → ∀ q : Binary64,
        ({ declarations := e, nonConforming := m } : Totals).percentage? = some q →
          q.toRat ≤ p.toRat := by
  obtain ⟨p, hp, hsign, hfinite, _, hsteps⟩ := exists_steps hn hpos hd.le
  have htoRat : p.toRat = magnitude p.rank := toRat_of_not_negative hsign
  refine ⟨p, hp, hfinite, ?_, ?_, ?_, ?_, ?_⟩
  · exact htoRat ▸ magnitude_nonneg p.rank
  · exact htoRat ▸ hsteps.magnitude_le_hundred hn hpos
  · exact htoRat ▸ hsteps.magnitude_eq_zero_iff hpos hd
  · rintro rfl
    exact htoRat ▸ hsteps.magnitude_eq_hundred hpos
  · intro m e hm he hlimit q hq
    exact toRat_le_of_le hn hpos hm he hlimit.le hp hq

/-- Counts that are too great to be numbers themselves. -/
theorem percentage_of_great_counts :
    2 ^ 64 - 2 ≤ 2 ^ 64 - 1 ∧ 1 ≤ 2 ^ 64 - 1 ∧ 2 ^ 64 - 1 < 2 ^ 64 ∧ ∃ p : Binary64,
      ({ declarations := 2 ^ 64 - 1, nonConforming := 2 ^ 64 - 2 } : Totals).percentage? =
          some p ∧
        p.isFinite = true ∧ 0 ≤ p.toRat ∧ p.toRat ≤ 100 ∧ p.toRat ≠ 0 ∧
        ∀ q : Binary64,
          ({ declarations := 2 ^ 64 - 1, nonConforming := 2 ^ 53 + 1 } : Totals).percentage? =
            some q → q.toRat ≤ p.toRat := by
  obtain ⟨p, hp, hfinite, hlow, hhigh, hzero, -, hle⟩ :=
    percentage_of_counts (n := 2 ^ 64 - 2) (d := 2 ^ 64 - 1) (by decide) (by decide) (by decide)
  refine ⟨by decide, by decide, by decide, p, hp, hfinite, hlow, hhigh, ?_, ?_⟩
  · exact mt hzero.mp (by decide)
  · exact hle (2 ^ 53 + 1) (2 ^ 64 - 1) (by decide) le_rfl (by decide)

end MethodSurvey.Percentage
