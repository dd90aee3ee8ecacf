import MethodSurvey.Numeric.Numeral
import MethodSurvey.Text.Pieces
import MethodSurvey.Toml.Value

/-! The values that are written without quotes or brackets, each one a word of its own. -/

namespace MethodSurvey.Toml

/-- A sign, if there is one, and what follows it. -/
def signed : List Char → Bool × List Char
  | '-' :: s => (true, s)
  | '+' :: s => (false, s)
  | s => (false, s)

def withoutUnderscores (s : List Char) : List Char := s.filter (· != '_')

/-- Whether underscores only divide the word. What stands after one must start with a
digit. What stands before one must end with a digit, unless it is a single character,
so that a sign may have an underscore after it. -/
def isSpaced (isDigit : Char → Bool) (s : List Char) : Bool :=
  let groups := Text.pieces '_' s
  groups.all (!·.isEmpty) &&
    (groups.drop 1).all (fun g => g.head?.any isDigit) &&
    groups.dropLast.all fun g => g.length = 1 || g.getLast?.any isDigit

/-- An integer in a base of its own. The digits may be missing, and then cannot be read. -/
def based? (base : Nat) (s : List Char) : Option Value :=
  let digits := withoutUnderscores s
  if s.isEmpty then some .illegible
  else if digits.all (Numeral.isDigitOf base) && isSpaced (Numeral.isDigitOf base) s then
    some (.integer (Numeral.value base digits))
  else none

def isExponentMark (c : Char) : Bool := c == 'e' || c == 'E'

/-- Whether the word has a point or an exponent. -/
def isFractional (s : List Char) : Bool :=
  s.any fun c => c == '.' || isExponentMark c

/-- An integer without a base. No zero may stand before another character. After the
first underscore any word will do that is spaced like a hexadecimal number, but only
one of decimal digits can be read. -/
def decimal? (s : List Char) : Option Value :=
  let (negative, whole) := signed s
  let rest := whole.dropWhile Char.isDigit
  if whole.isEmpty || (whole.head? == some '0' && whole != ['0']) then none
  else if isFractional s || !(rest.isEmpty || rest.head? == some '_') then none
  else if !isSpaced (Numeral.isDigitOf 16) s then none
  else match Numeral.read? 10 (withoutUnderscores whole) with
    | some n => some (.integer (if negative then -n else n))
    | none => some .illegible

def integer? : List Char → Option Value
  | '0' :: 'x' :: s => based? 16 s
  | '0' :: 'o' :: s => based? 8 s
  | '0' :: 'b' :: s => based? 2 s
  | s => decimal? s

/-- The digits of a part of a float. -/
def partDigits? (s : List Char) : Option (List Char) :=
  let digits := withoutUnderscores s
  if !digits.isEmpty && digits.all Char.isDigit then some digits else none

/-- The part of a float before its point, where no zero may stand before another digit. -/
def wholeDigits? (s : List Char) : Option (List Char) := do
  let digits ← partDigits? s
  if s.head? = some '0' ∧ 2 ≤ digits.length then none else some digits

/-- The exponent of a float. Zeros may stand before its other digits. -/
def exponent? (s : List Char) : Option Int := do
  let (negative, digits) := signed s
  let n := Numeral.value 10 (← partDigits? digits)
  return if negative then -n else n

/-- Reads what stands after the first character of the given class, or yields `absent`
if there is none. -/
def after? {α : Type} (p : Char → Bool) (read? : List Char → Option α) (absent : α)
    (s : List Char) : Option α :=
  match s.dropWhile (!p ·) with
  | [] => some absent
  | _ :: rest => read? rest

/-- A float has a point or an exponent, and digits on both sides of its point. -/
def float? (s : List Char) : Option Scientific := do
  guard (isFractional s && isSpaced Char.isDigit s)
  let (negative, s) := signed s
  let exponent ← after? isExponentMark exponent? 0 s
  let mantissa := s.takeWhile (!isExponentMark ·)
  let places ← after? (· == '.') partDigits? [] mantissa
  let whole ← wholeDigits? (mantissa.takeWhile (· != '.'))
  return { negative
           digits := Numeral.value 10 (whole ++ places)
           exponent := exponent - places.length }

def isFloatName (s : List Char) : Bool :=
  (signed s).2 == ['i', 'n', 'f'] || (signed s).2 == ['n', 'a', 'n']

def isLeapYear (year : Nat) : Bool :=
  year % 4 == 0 && (year % 100 != 0 || year % 400 == 0)

def daysIn (year month : Nat) : Nat :=
  if month = 2 then if isLeapYear year then 29 else 28
  else if month ∈ [4, 6, 9, 11] then 30
  else 31

/-- Two digits of a number from `low` to `high`, and the rest. -/
def pair? (low high : Nat) : List Char → Option (Nat × List Char)
  | a :: b :: s => do
    let n ← Numeral.read? 10 [a, b]
    if low ≤ n ∧ n ≤ high then some (n, s) else none
  | _ => none

/-- What follows a date at the beginning. -/
def afterDate? (s : List Char) : Option (List Char) := do
  let year ← Numeral.read? 10 (s.take 4)
  let '-' :: s := s.drop 4 | none
  let (month, s) ← pair? 1 12 s
  let '-' :: s := s | none
  let (_, s) ← pair? 1 (daysIn year month) s
  return s

/-- What follows the fraction of a second at the beginning, if there is one. -/
def afterFraction? : List Char → Option (List Char)
  | '.' :: s => if (s.head?.any Char.isDigit) then some (s.dropWhile Char.isDigit) else none
  | s => some s

/-- What follows a time of day at the beginning. Its seconds may be left out, and there
may be a leap second. -/
def afterTime? (s : List Char) : Option (List Char) := do
  let (_, s) ← pair? 0 23 s
  let ':' :: s := s | none
  let (_, s) ← pair? 0 59 s
  match s with
  | ':' :: s => do
    let (_, s) ← pair? 0 60 s
    afterFraction? s
  | s => some s

/-- Whether this is the distance of a local time from the universal one, or nothing. -/
def isOffset : List Char → Bool
  | [] | ['Z'] | ['z'] => true
  | sign :: s =>
    (sign == '+' || sign == '-') &&
      match pair? 0 23 s with
      | some (_, ':' :: s) =>
        match pair? 0 59 s with
        | some (_, []) => true
        | _ => false
      | _ => false

def isTimeMark (c : Char) : Bool := c == 'T' || c == 't' || c == ' '

/-- Whether this is a date, a time of day, or a date with a time, which alone may have
an offset. -/
def isMoment (s : List Char) : Bool :=
  match afterDate? s with
  | some [] => true
  | some (c :: s) => isTimeMark c && (afterTime? s).any isOffset
  | none => afterTime? s == some []

def scalar? (s : List Char) : Option Value :=
  if s == ['t', 'r', 'u', 'e'] then some (.boolean true)
  else if s == ['f', 'a', 'l', 's', 'e'] then some (.boolean false)
  else if isFloatName s then some .floatName
  else if isMoment s then some .moment
  else integer? s <|> (.float <$> float? s)

end MethodSurvey.Toml
