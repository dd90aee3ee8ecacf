import MethodSurvey.Numeric.Binary64
import MethodSurvey.Numeric.Numeral

/-! Numbers written with two decimal places, and read back. -/

namespace MethodSurvey.Binary64

def signOf (x : Binary64) : List Char :=
  if x.negative then ['-'] else []

/-- The magnitude in hundredths, rounded from its exact value, a tie to the even one. -/
def hundredths (rank : Nat) : Nat :=
  roundDiv (units rank * 100) unitsPerOne

/-- Hundredths written with a point. -/
def pointed (n : Nat) : List Char :=
  Numeral.decimal (n / 100) ++ ['.', Nat.digitChar (n / 10 % 10), Nat.digitChar (n % 10)]

/-- The number with two decimal places. The sign of a zero is written too. -/
def twoPlaces (x : Binary64) : List Char :=
  if x.isNaN then ['N', 'a', 'N']
  else if x.isInfinite then x.signOf ++ ['i', 'n', 'f']
  else x.signOf ++ pointed (hundredths x.rank)

/-- The magnitude of digits with at most one point among them. -/
def readMagnitude? (negative : Bool) (s : List Char) : Option Binary64 := do
  let whole := s.takeWhile (· != '.')
  let places := (s.dropWhile (· != '.')).drop 1
  let n ← Numeral.read? 10 (whole ++ places)
  if whole.isEmpty then none else some (ofRatio negative n (Numeral.tenTo places.length))

/-- Reads what `twoPlaces` writes, and the same with other numbers of places. -/
def read? : List Char → Option Binary64
  | ['N', 'a', 'N'] => some nan
  | ['i', 'n', 'f'] => some (infinity false)
  | ['-', 'i', 'n', 'f'] => some (infinity true)
  | '-' :: s => readMagnitude? true s
  | s => readMagnitude? false s

/-- Takes zeros off the end, and then points; what leaves no digit is written 0. -/
def dropTrailingZeros (s : List Char) : List Char :=
  let rest := ((s.reverse.dropWhile (· == '0')).dropWhile (· == '.')).reverse
  if rest = [] ∨ rest = ['-'] then ['0'] else rest

end MethodSurvey.Binary64
