import MethodSurvey.Text.Blank
import MethodSurvey.Text.WordCharacter

/-! Declarations recognized by the whole line, up to the brace that opens the body.
Blank runs and words are disjoint, so a line has one reading at most. -/

namespace MethodSurvey.Declaration.Strict

def javaModifiers : List String :=
  ["private", "protected", "public"]

/-- The longest start of the text that meets `p`, if it is not empty, and the rest. -/
def run? (p : Char → Bool) (s : List Char) : Option (List Char × List Char) :=
  if (s.takeWhile p).isEmpty then none else some (s.takeWhile p, s.dropWhile p)

/-- A blank run and the word after it: the word and the rest. -/
def nextWord? (s : List Char) : Option (List Char × List Char) := do
  let (_, s) ← run? Text.isBlank s
  run? Text.isAsciiWord s

/-- Whether the text ends with a parenthesis, blanks and an opening brace, and no
line feed stands before that parenthesis. -/
def opensBody (s : List Char) : Bool :=
  match s.reverse with
  | '{' :: start =>
    match start.dropWhile Text.isBlank with
    | ')' :: parameters => !parameters.contains '\n'
    | _ => false
  | _ => false

/-- Whether the text is a parameter list and an opening brace, after blanks at most. -/
def isParameterList (s : List Char) : Bool :=
  match Text.trimStart s with
  | '(' :: rest => opensBody rest
  | _ => false

def afterModifier? (line : List Char) : Option (List Char) :=
  javaModifiers.findSome? fun word => word.toList.isPrefixOf? line

def javaName? (line : List Char) : Option (List Char) := do
  let rest ← afterModifier? line
  let (_, rest) ← nextWord? rest
  let (name, rest) ← nextWord? rest
  if isParameterList rest then some name else none

def kotlinName? (line : List Char) : Option (List Char) := do
  let rest ← ['f', 'u', 'n'].isPrefixOf? line
  let (name, rest) ← nextWord? rest
  if isParameterList rest then some name else none

end MethodSurvey.Declaration.Strict
