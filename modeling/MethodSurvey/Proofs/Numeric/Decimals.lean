import Mathlib.Data.List.Basic
import MethodSurvey.Numeric.Shortest

/-! Decimal numerals. A numeral has the value it was written for and begins with zero for
zero alone, and the shortest decimal of a positive number is positive. -/

namespace MethodSurvey

namespace Numeral

variable {c : Char} {n : Nat} {s : List Char}

theorem decimal_ne_nil (n : Nat) : decimal n ≠ [] := Nat.toDigits_ne_nil

theorem isDigit_of_mem_decimal (hc : c ∈ decimal n) : c.isDigit = true :=
  Nat.isDigit_of_mem_toDigits (by decide) (by decide) hc

theorem value_eq_ofDigitChars (h : ∀ c ∈ s, c.isDigit = true) :
    value 10 s = Nat.ofDigitChars 10 s 0 := by
  rw [value, Nat.ofDigitChars_eq_foldl]
  refine List.foldl_ext _ _ 0 fun n c hc => ?_
  rw [digitValue, if_pos (h c hc), Nat.mul_comm]

theorem value_decimal (n : Nat) : value 10 (decimal n) = n :=
  (value_eq_ofDigitChars fun _ => isDigit_of_mem_decimal).trans Nat.ofDigitChars_ten_toDigits

theorem value_zeros_append (zeros : Nat) (h : ∀ c ∈ s, c.isDigit = true) :
    value 10 (List.replicate zeros '0' ++ s) = value 10 s := by
  have hall : ∀ c ∈ List.replicate zeros '0' ++ s, c.isDigit = true := by
    simp only [List.forall_mem_append]
    exact ⟨fun c hc => List.eq_of_mem_replicate hc ▸ rfl, h⟩
  rw [value_eq_ofDigitChars hall, value_eq_ofDigitChars h, Nat.ofDigitChars_append,
    Nat.ofDigitChars_replicate_zero, Nat.mul_zero]

theorem value_append_zeros (zeros : Nat) (h : ∀ c ∈ s, c.isDigit = true) :
    value 10 (s ++ List.replicate zeros '0') = value 10 s * tenTo zeros := by
  have hall : ∀ c ∈ s ++ List.replicate zeros '0', c.isDigit = true := by
    simp only [List.forall_mem_append]
    exact ⟨h, fun c hc => List.eq_of_mem_replicate hc ▸ rfl⟩
  rw [value_eq_ofDigitChars hall, value_eq_ofDigitChars h, Nat.ofDigitChars_append,
    Nat.ofDigitChars_replicate_zero, Nat.mul_comm]
  rfl

theorem eq_zero_of_head?_decimal (h : (decimal n).head? = some '0') : n = 0 := by
  induction n using Nat.strongRecOn with
  | ind n ih =>
    rw [decimal, Nat.toDigits_eq_if (by decide)] at h
    split_ifs at h with hn
    · simpa using h
    · have hhead : (decimal (n / 10)).head? = some '0' := by
        rwa [List.head?_append_of_ne_nil _ Nat.toDigits_ne_nil] at h
      have := ih (n / 10) (by omega) hhead
      omega

end Numeral

namespace Binary64

theorem units_pos {rank : Nat} (h : rank ≠ 0) : 0 < units rank := by
  have hbinade : 0 < binade := by decide
  unfold units
  split_ifs with hrank
  · omega
  · rw [Nat.shiftLeft_eq]
    exact Nat.mul_pos (by omega) (Nat.two_pow_pos _)

theorem tenTo_pos (n : Nat) : 0 < Numeral.tenTo n := Nat.pow_pos (by decide)

theorem digits_pos_of_roundsTo {rank : Nat} {d : Decimal} (hrank : rank ≠ 0)
    (h : roundsTo rank d = true) : 0 < d.digits := by
  by_contra hd
  have hd : d.digits = 0 := by omega
  have hlow : 0 < (units (rank - 1) + units rank) * Numeral.tenTo (-d.exponent).toNat :=
    Nat.mul_pos (Nat.add_pos_right _ (units_pos hrank)) (tenTo_pos _)
  simp only [roundsTo, hd, Nat.zero_mul] at h
  split_ifs at h
  · have := of_decide_eq_true ((Bool.and_eq_true _ _).mp h).1
    omega
  · have := of_decide_eq_true ((Bool.and_eq_true _ _).mp h).1
    omega

theorem roundsTo_of_nearest? {rank : Nat} {exponent : Int} {d : Decimal}
    (h : nearest? rank exponent = some d) : roundsTo rank d = true := by
  simp only [nearest?] at h
  split at h
  case h_1 hbelow habove =>
    split_ifs at h
    · exact Option.some.inj h ▸ hbelow
    · exact Option.some.inj h ▸ habove
  case h_2 hbelow _ => exact Option.some.inj h ▸ hbelow
  case h_3 _ habove => exact Option.some.inj h ▸ habove
  case h_4 => cases h

theorem Decimal.digits_strip_pos {fuel : Nat} {d : Decimal} (h : 0 < d.digits) :
    0 < (d.strip fuel).digits := by
  induction fuel generalizing d with
  | zero => exact h
  | succ fuel ih =>
    rw [strip]
    split_ifs with hzero
    · exact ih (by simp only; omega)
    · exact h

theorem tenTo_div_shiftLeft_pos (n : Nat) : 0 < Numeral.tenTo n / 1 <<< n := by
  rw [Nat.one_shiftLeft]
  exact Nat.div_pos (Nat.pow_le_pow_left (by decide) n) (Nat.two_pow_pos n)

theorem tenTo_div_unitsPerOne_pos : 0 < Numeral.tenTo 1074 / unitsPerOne := by
  rw [unitsPerOne]
  exact tenTo_div_shiftLeft_pos _

theorem digits_shortestDecimal_pos {rank : Nat} (hrank : rank ≠ 0) :
    0 < (shortestDecimal rank).digits := by
  refine Decimal.digits_strip_pos ?_
  cases hfound : (List.range 17).findSome? fun (n : Nat) =>
      nearest? rank (leadingExponent rank - n) with
  | some d =>
    obtain ⟨n, _, hn⟩ := List.exists_of_findSome?_eq_some hfound
    rw [Option.getD_some]
    exact digits_pos_of_roundsTo hrank (roundsTo_of_nearest? hn)
  | none =>
    rw [Option.getD_none]
    exact Nat.mul_pos (units_pos hrank) tenTo_div_unitsPerOne_pos

end Binary64

end MethodSurvey
