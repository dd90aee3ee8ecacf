import MethodSurvey.Text.Blank

/-! Comment lines and code lines. Only the two ends of a trimmed line are looked
at: a line that opens a block comment is a comment line as a whole, even where
code follows the closing mark. -/

namespace MethodSurvey

inductive LineKind where
  | comment
  | code
  deriving DecidableEq, Repr

namespace LineKind

def blockOpening : List Char := ['/', '*']

def blockClosing : List Char := ['*', '/']

def lineMark : List Char := ['/', '/']

/-- The kind of a trimmed line, and whether a block comment is open after it;
`inside` says whether one is open before it. -/
def classify (inside : Bool) (line : List Char) : LineKind × Bool :=
  if inside || blockOpening.isPrefixOf line then (comment, !blockClosing.isSuffixOf line)
  else if lineMark.isPrefixOf line then (comment, false)
  else (code, false)

/-- The kinds of the lines of a file, each with the state that it leaves. -/
def classifyAll : Bool → List (List Char) → List (LineKind × Bool)
  | _, [] => []
  | inside, line :: lines =>
    let result := classify inside (Text.trim line)
    result :: classifyAll result.2 lines

end LineKind

end MethodSurvey
