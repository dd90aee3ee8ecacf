import MethodSurvey.Numeric.Places

/-! The share of declarations whose name does not conform. -/

namespace MethodSurvey

/-- The declarations of a run. -/
structure Totals where
  declarations : Nat := 0
  nonConforming : Nat := 0
  deriving DecidableEq, Repr

/-- The quotient of the two counts times a hundred, each step rounded to the nearest
number; there is none without declarations. -/
def Totals.percentage? (t : Totals) : Option Binary64 :=
  if t.declarations = 0 then none
  else some (Binary64.ofNat t.nonConforming / Binary64.ofNat t.declarations * Binary64.ofNat 100)

namespace Percentage

/-- A percentage with at most two places and no zero at the end of them. -/
def text (p : Binary64) : List Char :=
  Binary64.dropTrailingZeros p.twoPlaces

/-- The number that the percentage with two places reads as. -/
def rounded (p : Binary64) : Binary64 :=
  (Binary64.read? p.twoPlaces).getD p

end Percentage

end MethodSurvey
