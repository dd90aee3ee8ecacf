import MethodSurvey.Proofs.Numeric.Arithmetic
import MethodSurvey.Proofs.Numeric.Hundredths
import MethodSurvey.Proofs.Numeric.Notation
import MethodSurvey.Report.Receipt
import MethodSurvey.Report.Text

/-! The percentage as it is printed and as a receipt holds it. Both are the one number that its
hundredths read as, and to round that number again changes neither. -/

namespace MethodSurvey.Percentage

open Binary64
open Json (Lexeme)

variable {p : Binary64}

/-- The parts of a finite number with two places. -/
def fixed (p : Binary64) : Lexeme := .ofHundredths p.negative (hundredths p.rank)

theorem twoPlaces_of_isFinite (h : p.isFinite = true) : p.twoPlaces = (fixed p).text := by
  rw [twoPlaces, isNaN_of_isFinite h, isInfinite_of_isFinite h, fixed, Lexeme.text_ofHundredths]
  rfl

theorem trimmed_of_isFinite (h : p.isFinite = true) :
    trimmed p.twoPlaces = (fixed p).withoutZeros.text := by
  rw [twoPlaces_of_isFinite h]
  exact Lexeme.trimmed_text rfl (List.cons_ne_nil _ _)

theorem twoPlaces_of_not_isFinite (h : p.isFinite = false) :
    p.twoPlaces = ['N', 'a', 'N'] ∨ p.twoPlaces = ['i', 'n', 'f'] ∨
      p.twoPlaces = ['-', 'i', 'n', 'f'] := by
  rw [twoPlaces]
  split_ifs with hnan hinfinite
  · exact .inl rfl
  · rw [signOf]
    cases p.negative
    · exact .inr (.inl rfl)
    · exact .inr (.inr rfl)
  · have hle : infinityRank ≤ p.rank := Nat.le_of_not_lt (of_decide_eq_false h)
    rcases Nat.lt_or_eq_of_le hle with hlt | heq
    · exact absurd (decide_eq_true hlt) hnan
    · exact absurd (decide_eq_true heq.symm) hinfinite

/-- What is not finite is written with letters: nothing is trimmed, and it reads as a number
that is written in the same way. -/
theorem read?_of_not_isFinite (h : p.isFinite = false) :
    trimmed p.twoPlaces = p.twoPlaces ∧ 1 < p.twoPlaces.length ∧
      ∃ x, read? p.twoPlaces = some x ∧ x.twoPlaces = p.twoPlaces := by
  rcases twoPlaces_of_not_isFinite h with h | h | h <;> rw [h]
  · exact ⟨by decide, by decide, nan, rfl, by decide⟩
  · exact ⟨by decide, by decide, infinity false, rfl, by decide⟩
  · exact ⟨by decide, by decide, infinity true, rfl, by decide⟩

theorem read?_twoPlaces (p : Binary64) : read? p.twoPlaces = some (rounded p) := by
  obtain ⟨x, hx⟩ : ∃ x, read? p.twoPlaces = some x := by
    cases h : p.isFinite with
    | true => exact ⟨_, twoPlaces_of_isFinite h ▸ read?_text rfl⟩
    | false =>
      obtain ⟨-, -, x, hx, -⟩ := read?_of_not_isFinite h
      exact ⟨x, hx⟩
  rw [rounded, hx, Option.getD_some]

theorem read?_trimmed (p : Binary64) : read? (trimmed p.twoPlaces) = some (rounded p) := by
  rw [← read?_twoPlaces]
  cases h : p.isFinite with
  | true =>
    have hrank := rankOfRatio_congr (fixed p).withoutZeros.den_pos (fixed p).den_pos
      (fixed p).num_div_den_withoutZeros
    rw [trimmed_of_isFinite h, twoPlaces_of_isFinite h, read?_text rfl, read?_text rfl, ofRatio,
      ofRatio, hrank]
    rfl
  | false => rw [(read?_of_not_isFinite h).1]

theorem trimmed_ne_nil (p : Binary64) : trimmed p.twoPlaces ≠ [] := by
  cases h : p.isFinite with
  | true => exact trimmed_of_isFinite h ▸ Lexeme.text_ne_nil _
  | false =>
    obtain ⟨htrimmed, hlength, -⟩ := read?_of_not_isFinite h
    rw [htrimmed]
    exact List.ne_nil_of_length_pos (by omega)

theorem isDigit_of_trimmed_eq_singleton {c : Char} (hc : trimmed p.twoPlaces = [c]) :
    c.isDigit = true := by
  cases h : p.isFinite with
  | true => exact Lexeme.isDigit_of_text_eq_singleton ((trimmed_of_isFinite h).symm.trans hc)
  | false =>
    obtain ⟨htrimmed, hlength, -⟩ := read?_of_not_isFinite h
    rw [← htrimmed, hc] at hlength
    exact absurd hlength (Nat.lt_irrefl 1)

/-- Nothing is ever left to be written as zero. -/
theorem text_eq_trimmed (p : Binary64) : text p = trimmed p.twoPlaces := by
  rw [text, dropTrailingZeros_eq, if_neg]
  rintro (hnil | hsign)
  · exact trimmed_ne_nil p hnil
  · exact absurd (isDigit_of_trimmed_eq_singleton hsign) (by decide)

theorem num_fixed (p : Binary64) : (fixed p).num = hundredths p.rank :=
  congrArg Scientific.digits (Lexeme.value_ofHundredths p.negative (hundredths p.rank))

theorem rounded_of_isFinite (h : p.isFinite = true) :
    rounded p = ⟨p.negative, rankOfRatio (hundredths p.rank) 100⟩ := by
  have hread := read?_twoPlaces p
  rw [twoPlaces_of_isFinite h, read?_text rfl] at hread
  rw [← Option.some.inj hread, num_fixed]
  rfl

theorem toRat_value_withoutZeros (p : Binary64) : (fixed p).withoutZeros.value.toRat =
    (if p.negative then -1 else 1) * ((hundredths p.rank : ℚ) / 100) := by
  have hden : ((fixed p).den : ℚ) = 100 := by
    have hplaces : (fixed p).den = 100 := rfl
    rw [hplaces, Nat.cast_ofNat]
  rw [Lexeme.toRat_value rfl, Lexeme.num_div_den_withoutZeros, num_fixed, hden]
  rfl

theorem twoPlaces_rounded (p : Binary64) : (rounded p).twoPlaces = p.twoPlaces := by
  cases h : p.isFinite with
  | true =>
    obtain ⟨hlt, hsame⟩ := hundredths_rankOfRatio (of_decide_eq_true h)
    have hfinite : (rounded p).isFinite = true := by
      rw [rounded_of_isFinite h]
      exact decide_eq_true hlt
    rw [twoPlaces_of_isFinite hfinite, twoPlaces_of_isFinite h, fixed, fixed,
      rounded_of_isFinite h, hsame]
  | false =>
    obtain ⟨-, -, x, hx, hsame⟩ := read?_of_not_isFinite h
    rwa [Option.some.inj ((read?_twoPlaces p).symm.trans hx)]

/-- Rounding is stable: the rounded percentage has the text of the percentage, and to round it
again gives the same number with the same sign. -/
theorem rounded_stable (p : Binary64) :
    text (rounded p) = text p ∧ rounded (rounded p) = rounded p := by
  constructor
  · rw [text, twoPlaces_rounded, text]
  · have hread := read?_twoPlaces (rounded p)
    rw [twoPlaces_rounded, read?_twoPlaces] at hread
    exact (Option.some.inj hread).symm

/-- How a number is printed, beside the number with two places that the text stands for. -/
structure Printed (p : Binary64) (printed fixed : Lexeme) : Prop where
  text_eq : text p = printed.text
  without_exponent : printed.exponent? = none
  few_places : printed.places.length ≤ 2
  no_zero_last : printed.places.getLast? ≠ some '0'
  twoPlaces_eq : p.twoPlaces = fixed.text
  fixed_without_exponent : fixed.exponent? = none
  two_places : fixed.places.length = 2
  signs : printed.negative = p.negative ∧ fixed.negative = p.negative
  values : printed.value.toRat = fixed.value.toRat

theorem printed_of_isFinite (h : p.isFinite = true) :
    Printed p (fixed p).withoutZeros (fixed p) where
  text_eq := (text_eq_trimmed p).trans (trimmed_of_isFinite h)
  without_exponent := rfl
  few_places := (fixed p).length_places_withoutZeros_le
  no_zero_last := (fixed p).getLast?_places_withoutZeros
  twoPlaces_eq := twoPlaces_of_isFinite h
  fixed_without_exponent := rfl
  two_places := rfl
  signs := ⟨rfl, rfl⟩
  values := by
    rw [Lexeme.toRat_value rfl, Lexeme.toRat_value rfl, Lexeme.num_div_den_withoutZeros]
    rfl

theorem text_report_of_percentage {r : Report} (h : r.percentage? = some p) :
    ∃ before, r.text = before ++ Report.percentageLine p := by
  rw [Report.text, h]
  exact ⟨_, rfl⟩

theorem receipt_of_percentage {r : Report} (h : r.percentage? = some p) (summary : Summary)
    (context : ReceiptContext) (timestamp : Nat) :
    ∃ fields, r.receipt summary context timestamp = .object fields ∧
      fields.lookup "non_conforming_pct" = some (.real (rounded p)) := by
  rw [Report.receipt, h]
  exact ⟨_, rfl, rfl⟩

/-- The printed percentage and the one in a receipt are one number. What is printed keeps a
digit, denotes the number with two places, its sign included, and reads as the number in the
receipt, bit for bit. -/
theorem text_reads_as_rounded (p : Binary64) :
    text p = trimmed p.twoPlaces ∧ text p ≠ [] ∧ (∀ c, text p = [c] → c.isDigit = true) ∧
    (p.isFinite = true → ∃ printed fixed : Lexeme, Printed p printed fixed) ∧
    read? p.twoPlaces = some (rounded p) ∧ read? (text p) = some (rounded p) ∧
    ∀ r : Report, r.percentage? = some p →
      (∃ before, r.text = before ++ Report.percentageLine p) ∧
      ∀ summary context timestamp, ∃ fields,
        r.receipt summary context timestamp = .object fields ∧
        fields.lookup "non_conforming_pct" = some (.real (rounded p)) := by
  rw [text_eq_trimmed]
  exact ⟨rfl, trimmed_ne_nil p, fun c => isDigit_of_trimmed_eq_singleton,
    fun h => ⟨_, _, printed_of_isFinite h⟩, read?_twoPlaces p, read?_trimmed p,
    fun r h => ⟨text_report_of_percentage h, receipt_of_percentage h⟩⟩

/-- The sign of a zero is printed, with the zero it belongs to. -/
theorem text_reads_as_rounded_of_minus_zero :
    (zero true).isFinite = true ∧ read? ['-', '0'] = some (rounded (zero true)) ∧
      ∃ printed fixed : Lexeme, printed.text = ['-', '0'] ∧
        fixed.text = ['-', '0', '.', '0', '0'] ∧ printed.value.toRat = fixed.value.toRat := by
  obtain ⟨-, -, -, hprinted, -, hread, -⟩ := text_reads_as_rounded (zero true)
  have hfinite : (zero true).isFinite = true := by decide
  have htext : text (zero true) = ['-', '0'] := by decide +kernel
  have hplaces : (zero true).twoPlaces = ['-', '0', '.', '0', '0'] := by decide +kernel
  obtain ⟨printed, fixed, h⟩ := hprinted hfinite
  exact ⟨hfinite, htext ▸ hread, printed, fixed, h.text_eq.symm.trans htext,
    h.twoPlaces_eq.symm.trans hplaces, h.values⟩

end MethodSurvey.Percentage
