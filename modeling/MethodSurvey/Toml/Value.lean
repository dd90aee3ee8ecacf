import MethodSurvey.Numeric.Scientific

/-! The values of a TOML document. -/

namespace MethodSurvey.Toml

/-- How a table came about, which decides what may still be added to it. -/
inductive Origin where
  /-- By a header of its own, as the root and each table of a growing array. -/
  | header
  /-- On the way of a header to a table below it. -/
  | implied
  /-- On the way of a dotted key. -/
  | dotted
  /-- In braces. -/
  | inline
  deriving DecidableEq, Repr

inductive Value where
  | text (s : String)
  | boolean (b : Bool)
  | integer (n : Int)
  /-- A word that is spaced like an integer and is none. -/
  | illegible
  | float (x : Scientific)
  /-- A float that is written in letters: an infinity, or no number. -/
  | floatName
  /-- A date, a time, or both. -/
  | moment
  /-- An array grows if it is made of headers in double brackets. -/
  | array (growing : Bool) (items : List Value)
  | table (origin : Origin) (fields : List (String × Value))

namespace Value

/-- The integers that have a value. -/
def inRange (n : Int) : Bool := -(1 <<< 127 : Nat) ≤ n && n < (1 <<< 128 : Nat)

mutual

/-- Whether all numbers in the value can be read and are in range. -/
def isReadable : Value → Bool
  | text _ | boolean _ | floatName | moment => true
  | illegible => false
  | integer n => inRange n
  | float x => !x.overflows
  | array _ items => areReadable items
  | table _ fields => fieldsAreReadable fields

def areReadable : List Value → Bool
  | [] => true
  | item :: items => isReadable item && areReadable items

def fieldsAreReadable : List (String × Value) → Bool
  | [] => true
  | (_, value) :: fields => isReadable value && fieldsAreReadable fields

end

/-- Whether the value is an array or a table without content. -/
def isEmpty : Value → Bool
  | array _ items => items.isEmpty
  | table _ fields => fields.isEmpty
  | _ => false

end Value

end MethodSurvey.Toml
