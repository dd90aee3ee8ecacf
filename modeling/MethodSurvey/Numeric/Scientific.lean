import MethodSurvey.Numeric.Binary64
import MethodSurvey.Numeric.Numeral

/-! Decimal numbers with an exponent of ten. -/

namespace MethodSurvey

structure Scientific where
  negative : Bool
  digits : Nat
  exponent : Int
  deriving DecidableEq, Repr

namespace Scientific

/-- How many decimal digits a number has. -/
def width (n : Nat) : Nat := (Nat.toDigits 10 n).length

/-- The nearest binary number. -/
def nearest (x : Scientific) : Binary64 :=
  .ofRatio x.negative (x.digits * Numeral.tenTo x.exponent.toNat) (Numeral.tenTo (-x.exponent).toNat)

/-- Whether the nearest binary number is infinite. A number with digits before or behind
its three hundredth place is judged by that alone, so that no great power is taken. -/
def overflows (x : Scientific) : Bool :=
  let places := width x.digits + x.exponent
  x.digits ≠ 0 && (310 < places || (300 ≤ places && x.nearest.isInfinite))

end Scientific

end MethodSurvey
