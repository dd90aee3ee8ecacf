import Mathlib.Data.List.DropRight
import MethodSurvey.Numeric.Places
import MethodSurvey.Proofs.Json.Numbers
import MethodSurvey.Proofs.Numeric.NearestRank

/-! Decimals without an exponent. Zeros at the end of the places say nothing: without them, and
without a point that nothing follows, a text reads as the same number. -/

namespace MethodSurvey

/-- The number that a decimal denotes. -/
def Scientific.toRat (x : Scientific) : ℚ :=
  (if x.negative then -1 else 1) * (x.digits * 10 ^ x.exponent)

namespace Numeral

variable {c : Char} {s : List Char}

theorem isDigitOf_ten (h : c.isDigit = true) : isDigitOf 10 c = true := by
  have hbounds : 48 ≤ c.toNat ∧ c.toNat ≤ 57 := by
    obtain ⟨hlow, hhigh⟩ := (Bool.and_eq_true _ _).mp h
    exact ⟨of_decide_eq_true hlow, of_decide_eq_true hhigh⟩
  have hzero : '0'.toNat = 48 := rfl
  rw [isDigitOf, Char.isAlphanum, h, Bool.or_true, Bool.true_and, digitValue, if_pos h, hzero]
  exact decide_eq_true (by omega)

theorem read?_digits (hne : s ≠ []) (hs : ∀ c ∈ s, c.isDigit = true) :
    read? 10 s = some (value 10 s) := by
  have hall : s.all (isDigitOf 10) = true :=
    List.all_eq_true.mpr fun c hc => isDigitOf_ten (hs c hc)
  rw [read?, hall, List.isEmpty_eq_false_iff.mpr hne]
  rfl

theorem value_concat (s : List Char) (c : Char) :
    value 10 (s ++ [c]) = value 10 s * 10 + digitValue c := by
  rw [value, value, List.foldl_concat]

theorem digitValue_digitChar {n : Nat} (h : n < 10) : digitValue (Nat.digitChar n) = n := by
  have hzero : '0'.toNat = 48 := rfl
  rw [digitValue, if_pos (by rw [Nat.isDigit_digitChar, decide_eq_true h]),
    Nat.toNat_digitChar_of_lt_ten h, hzero, Nat.add_sub_cancel_left]

end Numeral

theorem rdropWhile_append_cons {p : Char → Bool} {c : Char} (hc : p c = false)
    (before after : List Char) :
    (before ++ c :: after).rdropWhile p = before ++ c :: after.rdropWhile p := by
  induction after using List.reverseRecOn with
  | nil => rw [List.rdropWhile_concat_neg _ _ _ (by simp [hc]), List.rdropWhile_nil]
  | append_singleton after d ih =>
    rw [← List.cons_append, ← List.append_assoc, List.rdropWhile_concat, List.rdropWhile_concat, ih]
    split_ifs <;> simp

theorem rdropWhile_eq_self_of_forall {p : Char → Bool} {s : List Char}
    (h : ∀ c ∈ s, p c = false) : s.rdropWhile p = s :=
  List.rdropWhile_eq_self_iff.mpr fun hne => by simp [h _ (List.getLast_mem hne)]

namespace Binary64

/-- A text without zeros at its end, and then without points. -/
def trimmed (s : List Char) : List Char :=
  (s.rdropWhile (· == '0')).rdropWhile (· == '.')

theorem dropTrailingZeros_eq (s : List Char) : dropTrailingZeros s =
    if trimmed s = [] ∨ trimmed s = ['-'] then ['0'] else trimmed s := by
  simp only [dropTrailingZeros, trimmed, List.rdropWhile, List.reverse_reverse]

end Binary64

namespace Json.Lexeme

open Text (Stops)

theorem isDigit_ne_of_not_isDigit {c d : Char} (hd : d.isDigit = false) (hc : c.isDigit = true) :
    (c == d) = false :=
  beq_eq_false_iff_ne.mpr fun he => Bool.false_ne_true (hd.symm.trans (he ▸ hc))

/-- The number of hundredths with two places behind the point. -/
def ofHundredths (negative : Bool) (n : Nat) : Lexeme where
  negative := negative
  whole := Numeral.decimal (n / 100)
  places := [Nat.digitChar (n / 10 % 10), Nat.digitChar (n % 10)]
  exponent? := none
  whole_digits := fun _ => Numeral.isDigit_of_mem_decimal
  places_digits := by simp [Nat.isDigit_digitChar, Nat.mod_lt]
  whole_ne_nil := Numeral.decimal_ne_nil _
  whole_zero := fun h => by rw [Numeral.eq_zero_of_head?_decimal h]; rfl

theorem text_ofHundredths (negative : Bool) (n : Nat) :
    (ofHundredths negative n).text = signText negative ++ Binary64.pointed n := by
  simp [text, ofHundredths, Binary64.pointed, placesText, exponentText]

theorem value_ofHundredths (negative : Bool) (n : Nat) :
    (ofHundredths negative n).value = ⟨negative, n, -2⟩ := by
  have hdigits : Numeral.value 10 (Numeral.decimal (n / 100) ++
      [Nat.digitChar (n / 10 % 10), Nat.digitChar (n % 10)]) = n := by
    rw [List.append_cons, Numeral.value_concat, Numeral.value_concat, Numeral.value_decimal,
      Numeral.digitValue_digitChar (Nat.mod_lt _ (by decide)),
      Numeral.digitValue_digitChar (Nat.mod_lt _ (by decide))]
    omega
  simp only [value, ofHundredths, hdigits, Option.getD_none, List.length_cons, List.length_nil]
  rfl

/-- The same number without the zeros at the end of its places. -/
def withoutZeros (l : Lexeme) : Lexeme where
  negative := l.negative
  whole := l.whole
  places := l.places.rdropWhile (· == '0')
  exponent? := none
  whole_digits := l.whole_digits
  places_digits := fun c hc => l.places_digits c ((List.rdropWhile_prefix _ _).subset hc)
  whole_ne_nil := l.whole_ne_nil
  whole_zero := l.whole_zero

theorem trimmed_text {l : Lexeme} (hexponent : l.exponent? = none) (hplaces : l.places ≠ []) :
    Binary64.trimmed l.text = l.withoutZeros.text := by
  have hfirst : (l.text).rdropWhile (· == '0') =
      signText l.negative ++ l.whole ++ '.' :: l.withoutZeros.places := by
    rw [text, hexponent, placesText_of_ne_nil hplaces, exponentText, List.append_nil,
      ← List.append_assoc, rdropWhile_append_cons (by decide)]
    rfl
  have hpoint {s : List Char} (hs : ∀ c ∈ s, c.isDigit = true) : ∀ c ∈ s, (c == '.') = false :=
    fun c hc => isDigit_ne_of_not_isDigit (by decide) (hs c hc)
  rw [Binary64.trimmed, hfirst]
  rcases List.eq_nil_or_concat l.withoutZeros.places with hkept | ⟨before, c, hkept⟩
  · have hsign : ∀ c ∈ signText l.negative, (c == '.') = false := by
      cases l.negative <;> simp [signText]
    rw [hkept, List.rdropWhile_concat_pos _ _ _ (by decide), rdropWhile_eq_self_of_forall
      (List.forall_mem_append.mpr ⟨hsign, hpoint l.whole_digits⟩), text, hkept]
    simp [withoutZeros, placesText, exponentText]
  · have hc : (c == '.') = false :=
      hpoint l.withoutZeros.places_digits c (by simp [hkept])
    have hne : l.withoutZeros.places ≠ [] := by simp [hkept]
    rw [hkept, List.concat_eq_append, ← List.cons_append, ← List.append_assoc,
      List.rdropWhile_concat_neg _ _ _ (by simp [hc]), text, placesText_of_ne_nil hne, hkept]
    simp [withoutZeros, exponentText]

theorem length_places_withoutZeros_le (l : Lexeme) :
    l.withoutZeros.places.length ≤ l.places.length :=
  (List.rdropWhile_prefix _ _).length_le

theorem getLast?_places_withoutZeros (l : Lexeme) :
    l.withoutZeros.places.getLast? ≠ some '0' := by
  intro h
  obtain ⟨hne, hlast⟩ := List.mem_getLast?_eq_getLast h
  exact List.rdropWhile_last_not (· == '0') l.places hne (beq_iff_eq.mpr hlast.symm)

theorem text_ne_nil (l : Lexeme) : l.text ≠ [] := by
  obtain ⟨c, t, ht, -⟩ := l.exists_head_text
  exact ht ▸ List.cons_ne_nil c t

/-- No number is a sign alone. -/
theorem isDigit_of_text_eq_singleton {l : Lexeme} {c : Char} (h : l.text = [c]) :
    c.isDigit = true := by
  obtain ⟨d, whole, hwhole⟩ := List.exists_cons_of_ne_nil l.whole_ne_nil
  have hd : d.isDigit = true := l.whole_digits d (hwhole ▸ List.mem_cons_self)
  rw [text, hwhole, List.append_eq_singleton_iff] at h
  rcases h with ⟨-, h⟩ | ⟨-, h⟩
  · exact (List.cons.inj h).1 ▸ hd
  · cases h

theorem exists_places_eq (l : Lexeme) :
    ∃ zeros, l.places = l.withoutZeros.places ++ List.replicate zeros '0' := by
  have hsplit : l.withoutZeros.places ++ l.places.rtakeWhile (· == '0') = l.places :=
    List.rdropWhile_append_rtakeWhile
  have hzeros : l.places.rtakeWhile (· == '0') = List.replicate _ '0' :=
    List.eq_replicate_of_mem fun _ hc => eq_of_beq (List.mem_rtakeWhile_imp (p := (· == '0')) hc)
  exact ⟨_, hzeros ▸ hsplit.symm⟩

/-- The quotient of natural numbers that a number without an exponent stands for. -/
def num (l : Lexeme) : Nat := Numeral.value 10 (l.whole ++ l.places)

def den (l : Lexeme) : Nat := Numeral.tenTo l.places.length

theorem den_pos (l : Lexeme) : 0 < l.den := Binary64.tenTo_pos _

theorem digits_isDigit (l : Lexeme) : ∀ c ∈ l.whole ++ l.places, c.isDigit = true :=
  List.forall_mem_append.mpr ⟨l.whole_digits, l.places_digits⟩

theorem toRat_value {l : Lexeme} (h : l.exponent? = none) :
    l.value.toRat = (if l.negative then -1 else 1) * ((l.num : ℚ) / l.den) := by
  have hpower : (l.den : ℚ) = 10 ^ l.places.length := by
    rw [den]
    exact_mod_cast rfl
  rw [value, h, Option.getD_none, Int.zero_sub, Scientific.toRat, zpow_neg, zpow_natCast, hpower,
    div_eq_mul_inv]
  rfl

theorem num_div_den_withoutZeros (l : Lexeme) :
    (l.withoutZeros.num : ℚ) / l.withoutZeros.den = l.num / l.den := by
  obtain ⟨zeros, hplaces⟩ := l.exists_places_eq
  have hnum : l.num = l.withoutZeros.num * Numeral.tenTo zeros := by
    rw [num, hplaces, ← List.append_assoc]
    exact Numeral.value_append_zeros zeros l.withoutZeros.digits_isDigit
  have hden : l.den = l.withoutZeros.den * Numeral.tenTo zeros := by
    rw [den, hplaces, List.length_append, List.length_replicate]
    exact Nat.pow_add 10 _ _
  have hzeros : (Numeral.tenTo zeros : ℚ) ≠ 0 := by
    exact_mod_cast (Binary64.tenTo_pos zeros).ne'
  rw [hnum, hden, Nat.cast_mul, Nat.cast_mul, mul_div_mul_right _ _ hzeros]

end Json.Lexeme

namespace Binary64

open Json (Lexeme)

theorem readMagnitude?_digits (negative : Bool) (l : Lexeme) :
    readMagnitude? negative (l.whole ++ Lexeme.placesText l.places) =
      some (ofRatio negative l.num l.den) := by
  have hwhole : ∀ c ∈ l.whole, (c != '.') = true := fun c hc =>
    bne_iff_ne.mpr fun he => absurd (l.whole_digits c hc) (he ▸ by decide)
  have hstops : Text.Stops (· != '.') (Lexeme.placesText l.places) := by
    unfold Lexeme.placesText
    split_ifs
    · exact Text.stops_nil
    · exact Text.stops_cons rfl
  have hplaces : (Lexeme.placesText l.places).drop 1 = l.places := by
    unfold Lexeme.placesText
    split_ifs with hnil
    · rw [hnil, List.drop_nil]
    · rfl
  have hread := Numeral.read?_digits (List.append_ne_nil_of_left_ne_nil l.whole_ne_nil l.places)
    l.digits_isDigit
  simp only [readMagnitude?, Text.takeWhile_run hwhole hstops, Text.dropWhile_run hwhole hstops,
    hplaces, hread, Option.bind_eq_bind, Option.bind_some,
    List.isEmpty_eq_false_iff.mpr l.whole_ne_nil, Bool.false_eq_true, if_false]
  rfl

theorem read?_of_isDigit {c : Char} (hc : c.isDigit = true) (s : List Char) :
    read? (c :: s) = readMagnitude? false (c :: s) := by
  have hne (d : Char) (hd : d.isDigit = false) : c ≠ d := fun he =>
    Bool.false_ne_true (hd.symm.trans (he ▸ hc))
  simp [read?, hne 'N' (by decide), hne 'i' (by decide), hne '-' (by decide)]

theorem read?_minus {c : Char} (hc : c.isDigit = true) (s : List Char) :
    read? ('-' :: c :: s) = readMagnitude? true (c :: s) := by
  have hne : c ≠ 'i' := fun he => absurd hc (he ▸ by decide)
  simp [read?, hne]

theorem read?_text {l : Lexeme} (h : l.exponent? = none) :
    read? l.text = some (ofRatio l.negative l.num l.den) := by
  obtain ⟨c, whole, hwhole⟩ := List.exists_cons_of_ne_nil l.whole_ne_nil
  have hc : c.isDigit = true := l.whole_digits c (hwhole ▸ List.mem_cons_self)
  rw [← readMagnitude?_digits, Lexeme.text, h, Lexeme.exponentText, List.append_nil, hwhole]
  cases l.negative
  · exact read?_of_isDigit hc _
  · exact read?_minus hc _

end Binary64

end MethodSurvey
