import MethodSurvey.Numeric.Binary64
import MethodSurvey.Numeric.Numeral

/-! The fewest decimal digits that read back to a number, and their layout. All
comparisons are between natural numbers. -/

namespace MethodSurvey.Binary64

/-- A decimal magnitude, `digits * 10 ^ exponent`. -/
structure Decimal where
  digits : Nat
  exponent : Int
  deriving DecidableEq, Repr

/-- Whether a decimal rounds to the rank: it lies between the midpoints towards the
neighbouring ranks, the midpoints included for an even rank. -/
def roundsTo (rank : Nat) (d : Decimal) : Bool :=
  let low := (units (rank - 1) + units rank) * Numeral.tenTo (-d.exponent).toNat
  let high := (units rank + units (rank + 1)) * Numeral.tenTo (-d.exponent).toNat
  let twice := d.digits * Numeral.tenTo d.exponent.toNat * (2 * unitsPerOne)
  if rank % 2 = 0 then low ≤ twice && twice ≤ high else low < twice && twice < high

/-- The exponent of the leading decimal digit of a positive magnitude. -/
def leadingExponent (rank : Nat) : Int :=
  ((Numeral.decimal (units rank * Numeral.tenTo 400 / unitsPerOne)).length : Int) - 401

/-- The decimal with `10 ^ exponent` as its unit that rounds to the rank and is
nearest to it, a tie going to the even digits. -/
def nearest? (rank : Nat) (exponent : Int) : Option Decimal :=
  let num := units rank * Numeral.tenTo (-exponent).toNat
  let den := unitsPerOne * Numeral.tenTo exponent.toNat
  let below : Decimal := ⟨num / den, exponent⟩
  let above : Decimal := ⟨num / den + 1, exponent⟩
  match roundsTo rank below, roundsTo rank above with
  | true, true => some (if roundDiv num den = num / den then below else above)
  | true, false => some below
  | false, true => some above
  | false, false => none

/-- The same decimal without zeros at its end. -/
def Decimal.strip : Nat → Decimal → Decimal
  | 0, d => d
  | fuel + 1, d =>
    if d.digits % 10 = 0 then strip fuel ⟨d.digits / 10, d.exponent + 1⟩ else d

/-- The first decimal found among those of one digit, of two digits and so on. The
exact value stands in where seventeen digits do not suffice. -/
def shortestDecimal (rank : Nat) : Decimal :=
  let found := (List.range 17).findSome? fun (n : Nat) => nearest? rank (leadingExponent rank - n)
  (found.getD ⟨units rank * (Numeral.tenTo 1074 / unitsPerOne), -1074⟩).strip 17

/-- Digits with a point where the exponent of the leading digit is from -5 to 15,
otherwise with one digit before the point and a signed exponent. -/
def layout (d : Decimal) : List Char :=
  let digits := Numeral.decimal d.digits
  let leading := d.exponent + digits.length - 1
  if leading < -5 ∨ 15 < leading then
    let fraction := if digits.length = 1 then [] else '.' :: digits.drop 1
    let sign := if leading < 0 then '-' else '+'
    digits.take 1 ++ fraction ++ 'e' :: sign :: Numeral.decimal leading.natAbs
  else if leading < 0 then
    ['0', '.'] ++ List.replicate (-leading - 1).toNat '0' ++ digits
  else if 0 ≤ d.exponent then
    digits ++ List.replicate d.exponent.toNat '0' ++ ['.', '0']
  else
    digits.take (leading.toNat + 1) ++ '.' :: digits.drop (leading.toNat + 1)

/-- The shortest text of a finite number. -/
def shortest (x : Binary64) : List Char :=
  (if x.negative then ['-'] else []) ++
    if x.rank = 0 then ['0', '.', '0'] else layout (shortestDecimal x.rank)

end MethodSurvey.Binary64
