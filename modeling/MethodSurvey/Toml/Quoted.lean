import MethodSurvey.Numeric.Numeral
import MethodSurvey.Toml.Reader

/-! Quoted text: on one line or several, with escapes or without. -/

namespace MethodSurvey.Toml

open Reader

inductive Quoting where
  /-- Double quotes; a backslash escapes. -/
  | basic
  /-- Single quotes; every character stands for itself. -/
  | literal
  deriving DecidableEq, Repr

def Quoting.mark : Quoting → Char
  | basic => '\x22'
  | literal => '\x27'

/-- Takes a backslash if it begins an escape. -/
def escapeMark : Quoting → Reader Bool
  | .basic => accept ['\\']
  | .literal => return false

/-- The character with the code that `count` hexadecimal digits give. -/
def hexadecimal (count : Nat) : Reader Char := fun s => do
  let n ← Numeral.read? 16 (s.take count)
  guard (count ≤ s.length ∧ n.isValidChar)
  return (Char.ofNat n, s.drop count)

/-- What follows the backslash of an escape. -/
def escape : Reader Char := do
  match ← one fun _ => true with
  | 'b' => return '\x08'
  | 't' => return '\t'
  | 'n' => return '\n'
  | 'f' => return '\x0C'
  | 'r' => return '\r'
  | 'e' => return '\x1B'
  | '\x22' => return '\x22'
  | '\\' => return '\\'
  | 'x' => hexadecimal 2
  | 'u' => hexadecimal 4
  | 'U' => hexadecimal 8
  | _ => failure

/-- A character between the quotes, or nothing at what ends them. -/
def quotedChar (q : Quoting) : Reader (Option Char) := do
  if (← next?) == some q.mark then return none
  else if ← escapeMark q then some <$> escape
  else some <$> one isPlain

/-- Text on one line, after its opening quote. -/
def shortText (q : Quoting) : Reader (List Char) := do
  let s ← collect (quotedChar q)
  expect [q.mark]
  return s

/-- Takes blanks and the end of the line, if nothing else comes before it. -/
def blankEnd : Reader Bool := fun s =>
  match newline (s.dropWhile isBlank) with
  | some (true, rest) => some (true, rest)
  | _ => some (false, s)

/-- Takes blanks and the ends of lines. -/
def skipEnds : Reader Unit := do
  let _ ← collect do
    if ← blankEnd then return some ()
    else return none
  skipBlanks

/-- A part of a text on several lines, or nothing where three quotes or more follow.
A backslash at the end of a line takes the blanks and line ends after it away. -/
def longPart (q : Quoting) : Reader (Option (List Char)) := do
  let marks := (← get).takeWhile (· == q.mark)
  if 3 ≤ marks.length then return none
  else if !marks.isEmpty then some <$> takeWhile (· == q.mark)
  else if ← newline then return some ['\n']
  else if ← escapeMark q then
    if ← blankEnd then
      skipEnds
      return some []
    else
      let c ← escape
      return some [c]
  else
    let c ← one isPlain
    return some [c]

/-- Text on several lines, after its three opening quotes. A line end right after them
does not count. One or two quotes more than three at the end belong to the text. -/
def longText (q : Quoting) : Reader (List Char) := do
  let _ ← newline
  let parts ← collect (longPart q)
  let marks ← takeWhile (· == q.mark)
  guard (3 ≤ marks.length ∧ marks.length ≤ 5)
  return parts.flatten ++ marks.drop 3

/-- Text in quotes of either kind, or nothing if no quote comes next. -/
def quoted? (q : Quoting) : Reader (Option (List Char)) := do
  if ← accept [q.mark, q.mark, q.mark] then some <$> longText q
  else if ← accept [q.mark] then some <$> shortText q
  else return none

end MethodSurvey.Toml
