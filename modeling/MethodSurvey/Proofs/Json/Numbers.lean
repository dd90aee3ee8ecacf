import MethodSurvey.Proofs.Json.Grammar
import MethodSurvey.Proofs.Numeric.Decimals
import MethodSurvey.Proofs.Toml.Reader

/-! Numbers are read as they were written, if no character follows that a number could
go on with. -/

namespace MethodSurvey.Json

open Numeral (decimal)
open Text (Stops)
open Toml.Reader

/-- The characters that a number can go on with. -/
def isNumeric (c : Char) : Bool := c.isDigit || c == '.' || c == 'e' || c == 'E'

/-- The characters that a number can begin with. -/
def opensNumber (c : Char) : Bool := c == '-' || c.isDigit

/-- A number in the parts it is written in. -/
structure Lexeme where
  negative : Bool
  whole : List Char
  places : List Char
  exponent? : Option Int
  whole_digits : ∀ c ∈ whole, c.isDigit = true
  places_digits : ∀ c ∈ places, c.isDigit = true
  whole_ne_nil : whole ≠ []
  whole_zero : whole.head? = some '0' → whole = ['0']

namespace Lexeme

def signText (negative : Bool) : List Char := if negative then ['-'] else []

def placesText (places : List Char) : List Char := if places = [] then [] else '.' :: places

def exponentText : Option Int → List Char
  | none => []
  | some e => 'e' :: (if e < 0 then '-' else '+') :: decimal e.natAbs

def text (l : Lexeme) : List Char :=
  signText l.negative ++ (l.whole ++ (placesText l.places ++ exponentText l.exponent?))

def value (l : Lexeme) : Scientific :=
  ⟨l.negative, Numeral.value 10 (l.whole ++ l.places), l.exponent?.getD 0 - l.places.length⟩

end Lexeme

variable {s : List Char}

theorem ne_minus_of_isDigit (c : Char) (hc : c.isDigit = true) : (c == '-') = false := by
  refine beq_eq_false_iff_ne.mpr ?_
  rintro rfl
  exact absurd hc (by decide)

theorem stops_isDigit (hs : Stops isNumeric s) : Stops Char.isDigit s :=
  hs.mono fun c hc => by simp [isNumeric, hc]

theorem stops_point (hs : Stops isNumeric s) : Stops (· == '.') s :=
  hs.mono fun c hc => by simp [isNumeric, hc]

namespace Lexeme

variable {p : Char → Bool}

theorem stops_exponentText (exponent? : Option Int) (he : p 'e' = false) (hs : Stops p s) :
    Stops p (exponentText exponent? ++ s) := by
  cases exponent? with
  | none => exact hs
  | some e => exact Text.stops_cons he

theorem stops_placesText (places : List Char) (hpoint : p '.' = false) (hs : Stops p s) :
    Stops p (placesText places ++ s) := by
  unfold placesText
  split_ifs
  · exact hs
  · exact Text.stops_cons hpoint

theorem stops_whole (l : Lexeme) (hp : ∀ c, c.isDigit = true → p c = false) (s : List Char) :
    Stops p (l.whole ++ s) := by
  obtain ⟨c, whole, hwhole⟩ := List.exists_cons_of_ne_nil l.whole_ne_nil
  have hc : c.isDigit = true := l.whole_digits c (hwhole ▸ List.mem_cons_self)
  rw [hwhole]
  exact Text.stops_cons (hp c hc)

theorem accept_signText (negative : Bool) (hs : Stops (· == '-') s) :
    accept ['-'] (signText negative ++ s) = some (negative, s) := by
  cases negative
  · exact accept_of_stops hs (by decide)
  · exact accept_cons '-' s

end Lexeme

theorem digits_run {run : List Char} (hrun : ∀ c ∈ run, c.isDigit = true) (hne : run ≠ [])
    (hs : Stops Char.isDigit s) : Grammar.digits (run ++ s) = some (run, s) := by
  simp only [Grammar.digits, bind_run, takeWhile_run hrun hs, Option.bind_some, guard_run hne,
    pure_run]

theorem exponent_text (exponent? : Option Int) (hs : Stops isNumeric s) :
    Grammar.exponent (Lexeme.exponentText exponent? ++ s) = some (exponent?.getD 0, s) := by
  cases exponent? with
  | none =>
    have hsmall : accept ['e'] s = some (false, s) := accept_of_stops hs (by decide)
    have hlarge : accept ['E'] s = some (false, s) := accept_of_stops hs (by decide)
    simp only [Grammar.exponent, Lexeme.exponentText, List.nil_append, orM, bind_run, hsmall,
      hlarge, Option.bind_some, toBool, Bool.false_eq_true, if_false, pure_run, Option.getD_none]
  | some e =>
    have hdigits : Grammar.digits (decimal e.natAbs ++ s) = some (decimal e.natAbs, s) :=
      digits_run (fun _ => Numeral.isDigit_of_mem_decimal) (Numeral.decimal_ne_nil _)
        (stops_isDigit hs)
    simp only [Grammar.exponent, Lexeme.exponentText, List.cons_append, orM, bind_run, accept_cons,
      Option.bind_some, toBool, Option.getD_some]
    by_cases hnegative : e < 0
    · have he : -(e.natAbs : Int) = e := by omega
      simp only [hnegative, ↓reduceIte, accept_cons, Option.bind_some, bind_run, hdigits, pure_run,
        Numeral.value_decimal, he]
    · have hplus (t : List Char) : accept ['-'] ('+' :: t) = some (false, '+' :: t) :=
        accept_of_head_ne (by decide)
      have he : (e.natAbs : Int) = e := by omega
      simp only [hnegative, ↓reduceIte, hplus, Option.bind_some, Bool.false_eq_true, bind_run,
        accept_cons, hdigits, pure_run, Numeral.value_decimal, he]

theorem places_text {places : List Char} (hplaces : ∀ c ∈ places, c.isDigit = true)
    (hdigit : Stops Char.isDigit s) (hpoint : Stops (· == '.') s) :
    Grammar.places (Lexeme.placesText places ++ s) = some (places, s) := by
  unfold Lexeme.placesText
  split_ifs with hnil
  · simp only [Grammar.places, List.nil_append, bind_run, accept_of_stops hpoint (beq_self_eq_true _),
      Option.bind_some, Bool.false_eq_true, if_false, pure_run, hnil]
  · simp only [Grammar.places, List.cons_append, bind_run, accept_cons, Option.bind_some, if_true,
      digits_run hplaces hnil hdigit]

theorem number_text (l : Lexeme) (hs : Stops isNumeric s) :
    Grammar.number (l.text ++ s) = some (l.value, s) := by
  have hexponent : Stops Char.isDigit (Lexeme.exponentText l.exponent? ++ s) :=
    Lexeme.stops_exponentText _ (by decide) (stops_isDigit hs)
  have hpoint : Stops (· == '.') (Lexeme.exponentText l.exponent? ++ s) :=
    Lexeme.stops_exponentText _ (by decide) (stops_point hs)
  have hplaces := Lexeme.stops_placesText l.places (by decide) hexponent
  have hwhole := l.stops_whole (p := (· == '-')) ne_minus_of_isDigit
    (Lexeme.placesText l.places ++ (Lexeme.exponentText l.exponent? ++ s))
  simp only [Grammar.number, Lexeme.text, List.append_assoc, bind_run,
    Lexeme.accept_signText _ hwhole, Option.bind_some,
    digits_run l.whole_digits l.whole_ne_nil hplaces, guard_run l.whole_zero,
    places_text l.places_digits hexponent hpoint, exponent_text _ hs, pure_run, Lexeme.value]

/-- A decimal as its text says it. What is written in full without places gets one zero
behind the point. -/
def scientific (negative : Bool) (d : Binary64.Decimal) : Scientific :=
  if 0 ≤ d.exponent ∧ d.exponent + (decimal d.digits).length ≤ 16 then
    ⟨negative, d.digits * Numeral.tenTo (d.exponent.toNat + 1), -1⟩
  else ⟨negative, d.digits, d.exponent⟩

namespace Lexeme

variable (negative : Bool) {n : Nat}

/-- The digits of a positive number with the point behind the first of them and `k` more. -/
def pointed (hn : 0 < n) (k : Nat) (exponent? : Option Int) : Lexeme where
  negative := negative
  whole := (decimal n).take (k + 1)
  places := (decimal n).drop (k + 1)
  exponent? := exponent?
  whole_digits := fun _ hc => Numeral.isDigit_of_mem_decimal (List.mem_of_mem_take hc)
  places_digits := fun _ hc => Numeral.isDigit_of_mem_decimal (List.mem_of_mem_drop hc)
  whole_ne_nil := by
    rw [Ne, List.take_eq_nil_iff]
    exact not_or.mpr ⟨Nat.succ_ne_zero k, Numeral.decimal_ne_nil n⟩
  whole_zero := fun h => by
    rw [List.head?_take, if_neg (Nat.succ_ne_zero k)] at h
    exact absurd (Numeral.eq_zero_of_head?_decimal h) hn.ne'

theorem value_pointed (hn : 0 < n) (k : Nat) (exponent? : Option Int) :
    (pointed negative hn k exponent?).value =
      ⟨negative, n, exponent?.getD 0 - ((decimal n).length - (k + 1) : Nat)⟩ := by
  simp only [value, pointed, List.take_append_drop, Numeral.value_decimal, List.length_drop]

def natural (n : Nat) : Lexeme where
  negative := false
  whole := decimal n
  places := []
  exponent? := none
  whole_digits := fun _ => Numeral.isDigit_of_mem_decimal
  places_digits := by simp
  whole_ne_nil := Numeral.decimal_ne_nil n
  whole_zero := fun h => by rw [Numeral.eq_zero_of_head?_decimal h]; rfl

theorem text_natural (n : Nat) : (natural n).text = decimal n := by
  simp only [text, natural, signText, placesText, exponentText, if_true, Bool.false_eq_true,
    if_false, List.nil_append, List.append_nil]

theorem value_natural (n : Nat) : (natural n).value = ⟨false, n, 0⟩ := by
  simp only [value, natural, List.append_nil, Numeral.value_decimal, Option.getD_none,
    List.length_nil, Int.sub_zero, Int.cast_ofNat_Int]

/-- A number behind the point, after some zeros. -/
def fractional (zeros n : Nat) : Lexeme where
  negative := negative
  whole := ['0']
  places := List.replicate zeros '0' ++ decimal n
  exponent? := none
  whole_digits := by simp
  places_digits := by
    rw [List.forall_mem_append]
    exact ⟨fun c hc => List.eq_of_mem_replicate hc ▸ rfl,
      fun _ => Numeral.isDigit_of_mem_decimal⟩
  whole_ne_nil := List.cons_ne_nil _ _
  whole_zero := fun _ => rfl

theorem value_fractional (zeros n : Nat) : (fractional negative zeros n).value =
    ⟨negative, n, -(zeros + (decimal n).length : Nat)⟩ := by
  have hvalue : Numeral.value 10 (['0'] ++ (List.replicate zeros '0' ++ decimal n)) = n := by
    rw [← List.append_assoc, ← List.replicate_one, List.replicate_append_replicate,
      Numeral.value_zeros_append _ fun _ => Numeral.isDigit_of_mem_decimal, Numeral.value_decimal]
  simp only [value, fractional, hvalue, Option.getD_none, List.length_append,
    List.length_replicate, Int.zero_sub]

/-- A number before the point, with zeros at its end, and a zero behind the point. -/
def integral (hn : 0 < n) (zeros : Nat) : Lexeme where
  negative := negative
  whole := decimal n ++ List.replicate zeros '0'
  places := ['0']
  exponent? := none
  whole_digits := by
    rw [List.forall_mem_append]
    exact ⟨fun _ => Numeral.isDigit_of_mem_decimal,
      fun c hc => List.eq_of_mem_replicate hc ▸ rfl⟩
  places_digits := by simp
  whole_ne_nil := List.append_ne_nil_of_left_ne_nil (Numeral.decimal_ne_nil n) _
  whole_zero := fun h => by
    rw [List.head?_append_of_ne_nil _ (Numeral.decimal_ne_nil n)] at h
    exact absurd (Numeral.eq_zero_of_head?_decimal h) hn.ne'

theorem value_integral (hn : 0 < n) (zeros : Nat) :
    (integral negative hn zeros).value = ⟨negative, n * Numeral.tenTo (zeros + 1), -1⟩ := by
  have hvalue : Numeral.value 10 (decimal n ++ List.replicate zeros '0' ++ ['0']) =
      n * Numeral.tenTo (zeros + 1) := by
    rw [List.append_assoc, ← List.replicate_succ',
      Numeral.value_append_zeros _ fun _ => Numeral.isDigit_of_mem_decimal, Numeral.value_decimal]
  simp only [value, integral, hvalue, Option.getD_none, List.length_singleton, Int.zero_sub,
    Int.cast_ofNat_Int]

/-- The parts in which a positive decimal is laid out. -/
def ofDecimal {d : Binary64.Decimal} (hd : 0 < d.digits) : Lexeme :=
  let leading := d.exponent + (decimal d.digits).length - 1
  if leading < -5 ∨ 15 < leading then pointed negative hd 0 (some leading)
  else if leading < 0 then fractional negative (-leading - 1).toNat d.digits
  else if 0 ≤ d.exponent then integral negative hd d.exponent.toNat
  else pointed negative hd leading.toNat none

theorem placesText_of_ne_nil {places : List Char} (h : places ≠ []) :
    placesText places = '.' :: places := if_neg h

theorem placesText_drop_one {digits : List Char} (h : 0 < digits.length) :
    placesText (digits.drop 1) = if digits.length = 1 then [] else '.' :: digits.drop 1 := by
  have hnil : digits.drop 1 = [] ↔ digits.length = 1 := by
    rw [List.drop_eq_nil_iff]
    omega
  simp only [placesText, hnil]

theorem text_ofDecimal {d : Binary64.Decimal} (hd : 0 < d.digits) :
    (ofDecimal negative hd).text = signText negative ++ Binary64.layout d := by
  have hlength : 0 < (decimal d.digits).length := Nat.length_toDigits_pos
  unfold ofDecimal Binary64.layout
  dsimp only
  generalize hleading : d.exponent + (decimal d.digits).length - 1 = leading
  by_cases hscientific : leading < -5 ∨ 15 < leading
  · simp only [if_pos hscientific, text, pointed, exponentText, placesText_drop_one hlength,
      List.append_assoc]
  · simp only [if_neg hscientific]
    split_ifs with hfraction hinteger
    · have hplaces : List.replicate (-leading - 1).toNat '0' ++ decimal d.digits ≠ [] :=
        List.append_ne_nil_of_right_ne_nil _ (Numeral.decimal_ne_nil _)
      simp only [text, fractional, exponentText, placesText_of_ne_nil hplaces, List.append_nil,
        List.cons_append, List.nil_append]
    · simp only [text, integral, exponentText, placesText_of_ne_nil (List.cons_ne_nil _ _),
        List.append_nil, List.append_assoc]
    · have hplaces : (decimal d.digits).drop (leading.toNat + 1) ≠ [] := by
        rw [Ne, List.drop_eq_nil_iff]
        omega
      simp only [text, pointed, exponentText, placesText_of_ne_nil hplaces, List.append_nil]

theorem value_ofDecimal {d : Binary64.Decimal} (hd : 0 < d.digits) :
    (ofDecimal negative hd).value = scientific negative d := by
  have hlength : 0 < (decimal d.digits).length := Nat.length_toDigits_pos
  unfold ofDecimal scientific
  dsimp only
  -- The four layouts, each with and without the zero behind the point that only one of them has.
  split_ifs with hscientific hwhole hfraction hwhole hinteger hwhole hwhole
  · omega
  · rw [value_pointed, Scientific.mk.injEq]
    exact ⟨rfl, rfl, by simp only [Option.getD_some]; omega⟩
  · omega
  · rw [value_fractional, Scientific.mk.injEq]
    exact ⟨rfl, rfl, by omega⟩
  · exact value_integral negative hd d.exponent.toNat
  · omega
  · omega
  · rw [value_pointed, Scientific.mk.injEq]
    exact ⟨rfl, rfl, by simp only [Option.getD_none]; omega⟩

/-- The parts in which a finite number is written. -/
def real (x : Binary64) : Lexeme :=
  if h : x.rank = 0 then fractional x.negative 0 0
  else ofDecimal x.negative (Binary64.digits_shortestDecimal_pos h)

theorem text_real (x : Binary64) : (real x).text = x.shortest := by
  unfold real Binary64.shortest
  by_cases hzero : x.rank = 0
  · rw [dif_pos hzero, if_pos hzero]
    rfl
  · rw [dif_neg hzero, if_neg hzero]
    exact text_ofDecimal x.negative _

/-- The text of a finite number says its shortest decimal. -/
theorem value_real (x : Binary64) : (real x).value =
    if x.rank = 0 then ⟨x.negative, 0, -1⟩
    else scientific x.negative (Binary64.shortestDecimal x.rank) := by
  unfold real
  split_ifs with hzero
  · rfl
  · exact value_ofDecimal x.negative _

theorem exists_head_text (l : Lexeme) : ∃ c t, l.text = c :: t ∧
    ∀ d, opensNumber d = false → d ≠ c := by
  obtain ⟨c, whole, hwhole⟩ := List.exists_cons_of_ne_nil l.whole_ne_nil
  have hne {d : Char} (hd : opensNumber d = true) : ∀ a, opensNumber a = false → a ≠ d := by
    rintro a ha rfl
    exact Bool.false_ne_true (ha.symm.trans hd)
  cases hsign : l.negative
  · have hc : c.isDigit = true := l.whole_digits c (hwhole ▸ List.mem_cons_self)
    exact ⟨c, _, by rw [text, hsign, hwhole]; rfl, hne (by rw [opensNumber, hc, Bool.or_true])⟩
  · exact ⟨'-', _, by rw [text, hsign]; rfl, hne (by decide)⟩

theorem printable_of_isDigit {c : Char} (h : c.isDigit = true) : 0x20 ≤ c.toNat := by
  obtain ⟨hlow, _⟩ := (Bool.and_eq_true _ _).mp h
  have : 48 ≤ c.toNat := of_decide_eq_true hlow
  omega

theorem printable_text (l : Lexeme) : ∀ c ∈ l.text, 0x20 ≤ c.toNat := by
  simp only [text, List.forall_mem_append]
  refine ⟨?_, fun c hc => printable_of_isDigit (l.whole_digits c hc), ?_, ?_⟩
  · unfold signText
    split_ifs <;> simp
  · unfold placesText
    split_ifs
    · simp
    · exact List.forall_mem_cons.mpr ⟨by decide,
        fun c hc => printable_of_isDigit (l.places_digits c hc)⟩
  · cases l.exponent? with
    | none => simp [exponentText]
    | some e =>
      refine List.forall_mem_cons.mpr ⟨by decide, List.forall_mem_cons.mpr ⟨?_, ?_⟩⟩
      · split_ifs <;> decide
      · exact fun c hc => printable_of_isDigit (Numeral.isDigit_of_mem_decimal hc)

end Lexeme

end MethodSurvey.Json
