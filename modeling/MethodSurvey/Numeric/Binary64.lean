/-! Binary floating-point numbers of 64 bits. A magnitude is given by its rank, its
place among all magnitudes in ascending order: zero has rank 0 and the least
positive number rank 1. Every result is the exact one, rounded once to the nearest
number, a tie going to the even rank. -/

namespace MethodSurvey

/-- The quotient rounded to the nearest integer, a tie to the even one. -/
def roundDiv (num den : Nat) : Nat :=
  let quotient := num / den
  match compare (2 * (num % den)) den with
  | .lt => quotient
  | .gt => quotient + 1
  | .eq => if quotient % 2 = 0 then quotient else quotient + 1

structure Binary64 where
  negative : Bool
  rank : Nat
  deriving DecidableEq, Repr

namespace Binary64

/-- How many ranks there are from one power of two to the next. -/
def binade : Nat := 1 <<< 52

/-- The rank after the greatest finite number. Higher ranks are not numbers. -/
def infinityRank : Nat := 0x7FF * binade

def nan : Binary64 := ⟨false, infinityRank + binade / 2⟩

def infinity (negative : Bool) : Binary64 := ⟨negative, infinityRank⟩

def zero (negative : Bool) : Binary64 := ⟨negative, 0⟩

def isNaN (x : Binary64) : Bool := infinityRank < x.rank

def isInfinite (x : Binary64) : Bool := x.rank = infinityRank

def isFinite (x : Binary64) : Bool := x.rank < infinityRank

/-- The weight of the sign among the 64 bits. -/
def signWeight : Nat := 1 <<< 63

/-- The number with the given 64 bits. -/
def ofBits (bits : Nat) : Binary64 := ⟨signWeight ≤ bits, bits % signWeight⟩

def toBits (x : Binary64) : Nat := (if x.negative then signWeight else 0) + x.rank

/-- How many of the least positive number make one. -/
def unitsPerOne : Nat := 1 <<< 1074

/-- The magnitude of a rank, counted in the least positive number. Ranks advance
by one unit over the first two binades, and by twice as much after every one from there. -/
def units (rank : Nat) : Nat :=
  if rank < binade then rank else (binade + rank % binade) <<< (rank / binade - 1)

/-- The rank nearest to a quotient. -/
def rankOfRatio (num den : Nat) : Nat :=
  let scaled := num * unitsPerOne
  let shift := (scaled / den).log2 - 52
  min infinityRank (shift * binade + roundDiv scaled (den <<< shift))

def ofRatio (negative : Bool) (num den : Nat) : Binary64 :=
  ⟨negative, rankOfRatio num den⟩

def ofNat (n : Nat) : Binary64 := ofRatio false n 1

def div (x y : Binary64) : Binary64 :=
  let negative := x.negative != y.negative
  if x.isNaN || y.isNaN then nan
  else if x.isInfinite then if y.isInfinite then nan else infinity negative
  else if y.isInfinite then zero negative
  else if y.rank = 0 then if x.rank = 0 then nan else infinity negative
  else ofRatio negative (units x.rank) (units y.rank)

def mul (x y : Binary64) : Binary64 :=
  let negative := x.negative != y.negative
  if x.isNaN || y.isNaN then nan
  else if x.isInfinite then if y.rank = 0 then nan else infinity negative
  else if y.isInfinite then if x.rank = 0 then nan else infinity negative
  else ofRatio negative (units x.rank * units y.rank) (unitsPerOne * unitsPerOne)

instance : Div Binary64 := ⟨div⟩

instance : Mul Binary64 := ⟨mul⟩

end Binary64

end MethodSurvey
