/-! Numerals of natural numbers. -/

namespace MethodSurvey.Numeral

def decimal (n : Nat) : List Char :=
  Nat.toDigits 10 n

def tenTo (n : Nat) : Nat :=
  Nat.pow 10 n

/-- The value of a digit, letters counting from ten on. -/
def digitValue (c : Char) : Nat :=
  if c.isDigit then c.toNat - '0'.toNat
  else if c.isLower then c.toNat - 'a'.toNat + 10
  else c.toNat - 'A'.toNat + 10

def isDigitOf (base : Nat) (c : Char) : Bool :=
  c.isAlphanum && digitValue c < base

/-- The value of digits, the most significant first. -/
def value (base : Nat) (digits : List Char) : Nat :=
  digits.foldl (fun n c => n * base + digitValue c) 0

/-- Reads one digit or more of the base, and nothing else. -/
def read? (base : Nat) (s : List Char) : Option Nat :=
  if !s.isEmpty && s.all (isDigitOf base) then some (value base s) else none

end MethodSurvey.Numeral
