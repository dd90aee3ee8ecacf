import MethodSurvey.Toml.Quoted
import MethodSurvey.Toml.Scalar
import MethodSurvey.Toml.Table

/-! The statements of a TOML document, and its root table. -/

namespace MethodSurvey.Toml

open Reader

/-- How deep arrays and tables in braces may be nested, and how many parts a dotted key
may have. -/
def depthLimit : Nat := 80

def isBareKeyChar (c : Char) : Bool := c.isAlphanum || c == '_' || c == '-'

/-- A key between dots, bare or quoted. -/
def simpleKey : Reader String := do
  let s ←
    if ← accept [Quoting.basic.mark] then shortText .basic
    else if ← accept [Quoting.literal.mark] then shortText .literal
    else do
      let s ← takeWhile isBareKeyChar
      guard !s.isEmpty
      pure s
  return String.ofList s

/-- A key with dots between its parts, and blanks about them. -/
def keyPath : Reader KeyPath := do
  skipBlanks
  let first ← simpleKey
  let others ← collect do
    skipBlanks
    if ← accept ['.'] then
      skipBlanks
      some <$> simpleKey
    else return none
  let keys := first :: others
  guard (keys.length ≤ depthLimit)
  return { tables := keys.dropLast, name := keys.getLastD first }

/-- What a word without quotes ends before: marks of the document, blanks and the ends
of lines. -/
def wordEnds : List Char := ['=', ',', '[', ']', '{', '}', ' ', '\t', '#', '\r', '\n']

def isWordChar (c : Char) : Bool := !wordEnds.contains c

/-- A value that is one word. A date and the time after it count as one word if one
blank is between them. -/
def scalar : Reader Value := do
  let word ← takeWhile isWordChar
  let time ← match afterDate? word, ← get with
    | some [], ' ' :: c :: _ =>
      if c.isDigit then do
        let _ ← accept [' ']
        List.cons ' ' <$> takeWhile isWordChar
      else pure []
    | _, _ => pure []
  StateT.lift (scalar? (word ++ time))

/-- A value without brackets. -/
def plainValue : Reader Value := do
  if let some s ← quoted? .basic then return .text (String.ofList s)
  if let some s ← quoted? .literal then return .text (String.ofList s)
  scalar

/-- One of the things between brackets, separated by commas, or nothing at the closing
bracket. A comma may stand after the last one. -/
def listed {α : Type} (close : Char) (item : Reader α) : Reader (Option α) := do
  if (← next?) == some close then return none
  let a ← item
  skipLines
  if ← accept [','] then skipLines
  else guard ((← next?) == some close)
  return some a

/-- An array after its opening bracket. -/
def array (value : Reader Value) : Reader Value := do
  skipLines
  let items ← collect (listed ']' value)
  expect [']']
  return .array false items

/-- A key with its value, and what `skip` takes about the sign between them. -/
def assignment (skip : Reader Unit) (value : Reader Value) : Reader (KeyPath × Value) := do
  let key ← keyPath
  skip
  expect ['=']
  skip
  return (key, ← value)

/-- A table after its opening brace. Its keys and values may stand on lines of their own. -/
def inlineTable (value : Reader Value) : Reader Value := do
  skipLines
  let assignments ← collect (listed '}' (assignment skipLines value))
  expect ['}']
  return (← StateT.lift (Table.inline? assignments)).toValue

/-- A value in which brackets are nested to the given depth at most. -/
def value : (depth : Nat) → Reader Value
  | 0 => plainValue
  | depth + 1 => do
    if ← accept ['['] then array (value depth)
    else if ← accept ['{'] then inlineTable (value depth)
    else plainValue

/-- A header, or an assignment. -/
def statement : Reader Statement := do
  if ← accept ['[', '['] then
    let path ← keyPath
    skipBlanks
    expect [']', ']']
    return .arrayHeader path
  else if ← accept ['['] then
    let path ← keyPath
    skipBlanks
    expect [']']
    return .header path
  else
    let (key, value) ← assignment skipBlanks (value depthLimit)
    return .assignment key value

/-- Whether nothing more is said on the line. -/
def atEndOfLine : Reader Bool := do
  match ← next? with
  | none | some '#' | some '\n' | some '\r' => return true
  | some _ => return false

/-- A line of the document with its end. Arrays, tables and texts in it may run over
several lines. -/
def line : Reader (Option Statement) := do
  skipBlanks
  let s ← if ← atEndOfLine then pure none else some <$> statement
  endOfLine
  return s

/-- All statements, in their order. -/
def statements : Reader (List Statement) := do
  let _ ← accept ['\uFEFF']
  let lines ← collect do
    if (← next?).isNone then return none
    else some <$> line
  return lines.filterMap id

/-- The root table of a document. -/
def parse? (text : List Char) : Option Table := do
  let (statements, _) ← statements text
  Table.ofStatements? statements

end MethodSurvey.Toml
