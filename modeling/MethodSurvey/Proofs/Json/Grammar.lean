import MethodSurvey.Numeric.Scientific
import MethodSurvey.Toml.Reader

/-! What a JSON text says, by the whole grammar: blanks may stand between the parts of
a text, characters may be escaped in any way, and numbers may have a sign, places and an
exponent. -/

namespace MethodSurvey.Json

open Toml (Reader)
open Toml.Reader

/-- What a JSON text says. Fields stand in the order of the text. -/
inductive Term where
  | null
  | boolean (b : Bool)
  | number (x : Scientific)
  | text (s : String)
  | array (items : List Term)
  | object (fields : List (String × Term))

namespace Term

def natural (n : Nat) : Term := .number ⟨false, n, 0⟩

end Term

namespace Grammar

variable {α : Type}

def isSpace (c : Char) : Bool := c == ' ' || c == '\t' || c == '\n' || c == '\r'

def skipSpaces : Reader Unit := do
  let _ ← takeWhile isSpace

def spaced (r : Reader α) : Reader α := do
  skipSpaces
  let a ← r
  skipSpaces
  return a

/-- The characters that a letter behind a backslash stands for. -/
def escapes : List (Char × Char) :=
  [('\x22', '\x22'), ('\\', '\\'), ('/', '/'), ('b', '\x08'), ('f', '\x0C'), ('n', '\n'),
    ('r', '\r'), ('t', '\t')]

/-- Four hexadecimal digits. -/
def codeUnit : Reader Nat := do
  let isHex := Numeral.isDigitOf 16
  let digits := [← one isHex, ← one isHex, ← one isHex, ← one isHex]
  return Numeral.value 16 digits

/-- The character given by one code unit, or by a pair of them beyond U+FFFF. -/
def unicode : Reader Char := do
  let unit ← codeUnit
  if 0xD800 ≤ unit ∧ unit < 0xE000 then
    guard (unit < 0xDC00)
    expect ['\\', 'u']
    let low ← codeUnit
    guard (0xDC00 ≤ low ∧ low < 0xE000)
    return Char.ofNat (0x10000 + (unit - 0xD800) * 0x400 + (low - 0xDC00))
  else
    return Char.ofNat unit

/-- The next character of a string, none at the closing quote. -/
def character? : Reader (Option Char) := do
  if ← accept ['\x22'] then return none
  else if ← accept ['\\'] then
    if ← accept ['u'] then return some (← unicode)
    else
      let letter ← one fun c => (escapes.lookup c).isSome
      return escapes.lookup letter
  else return some (← one fun c => 0x20 ≤ c.toNat)

def string : Reader String := do
  expect ['\x22']
  return String.ofList (← collect character?)

def digits : Reader (List Char) := do
  let digits ← takeWhile Char.isDigit
  guard (digits ≠ [])
  return digits

/-- The digits behind the point, if there is one. -/
def places : Reader (List Char) := do
  if ← accept ['.'] then digits else return []

def exponent : Reader Int := do
  if ← (accept ['e'] <||> accept ['E']) then
    let negative ← accept ['-']
    unless negative do
      let _ ← accept ['+']
    let n := Numeral.value 10 (← digits)
    return if negative then -n else n
  else return 0

/-- A number. Only a zero on its own begins with zero. -/
def number : Reader Scientific := do
  let negative ← accept ['-']
  let whole ← digits
  guard (whole.head? = some '0' → whole = ['0'])
  let places ← places
  return ⟨negative, Numeral.value 10 (whole ++ places), (← exponent) - places.length⟩

/-- The item behind a comma, none without a comma. -/
def another? (item : Reader α) : Reader (Option α) := do
  if ← accept [','] then return some (← item) else return none

/-- Items with commas between them, and the closing bracket. -/
def sequence (close : Char) (item : Reader α) : Reader (List α) := do
  skipSpaces
  if ← accept [close] then return []
  else
    let first ← item
    let others ← collect (another? item)
    expect [close]
    return first :: others

def field (item : Reader Term) : Reader (String × Term) := do
  let key ← spaced string
  expect [':']
  return (key, ← item)

/-- A value in which brackets are nested less than `depth` times. -/
def value : (depth : Nat) → Reader Term
  | 0 => failure
  | depth + 1 => do
    let item := spaced (value depth)
    if ← accept ['n', 'u', 'l', 'l'] then return .null
    else if ← accept ['t', 'r', 'u', 'e'] then return .boolean true
    else if ← accept ['f', 'a', 'l', 's', 'e'] then return .boolean false
    else if ← accept ['['] then return .array (← sequence ']' item)
    else if ← accept ['\x7b'] then return .object (← sequence '\x7d' (field item))
    else if (← next?) = some '\x22' then return .text (← string)
    else return .number (← number)

end Grammar

/-- What the whole text says. There are fewer brackets than characters. -/
def read? (s : List Char) : Option Term :=
  match Grammar.spaced (Grammar.value (s.length + 1)) s with
  | some (term, []) => some term
  | _ => none

end MethodSurvey.Json
