/-! Reading the beginning of a text, and what may stand between the parts of a TOML
document: blanks, comments and the ends of lines. -/

namespace MethodSurvey.Toml

/-- Reads the beginning of the text that is left, or fails. -/
abbrev Reader := StateT (List Char) Option

namespace Reader

variable {α : Type}

/-- The next character. It is left where it is. -/
def next? : Reader (Option Char) :=
  return (← get).head?

/-- Takes the characters up to the first one outside the class. -/
def takeWhile (p : Char → Bool) : Reader (List Char) :=
  fun s => some (s.takeWhile p, s.dropWhile p)

/-- Takes the word if it comes next, and says whether it did. -/
def accept (word : List Char) : Reader Bool :=
  fun s => some (if word.isPrefixOf s then (true, s.drop word.length) else (false, s))

/-- Takes the word, which must come next. -/
def expect (word : List Char) : Reader Unit := do
  guard (← accept word)

/-- Takes one character of the class, which must come next. -/
def one (p : Char → Bool) : Reader Char
  | c :: s => if p c then some (c, s) else none
  | [] => none

/-- Repeats a step until it yields nothing, `limit` times at most. -/
def collectUpTo (step : Reader (Option α)) : (limit : Nat) → Reader (List α)
  | 0 => failure
  | limit + 1 => do
    match ← step with
    | none => return []
    | some a => return a :: (← collectUpTo step limit)

/-- Repeats a step until it yields nothing. A step that yields something must take at
least one character. -/
def collect (step : Reader (Option α)) : Reader (List α) := do
  collectUpTo step ((← get).length + 1)

end Reader

open Reader

def isBlank (c : Char) : Bool := c == ' ' || c == '\t'

/-- The characters that may stand in comments and quotes: no control characters but
the tab. -/
def isPlain (c : Char) : Bool := c == '\t' || (0x20 ≤ c.toNat && c.toNat ≠ 0x7F)

def skipBlanks : Reader Unit := do
  let _ ← takeWhile isBlank

/-- Takes a line feed, with the carriage return before it if there is one. -/
def newline : Reader Bool :=
  accept ['\n'] <||> accept ['\r', '\n']

/-- Takes a comment, but not the end of its line. -/
def comment : Reader Bool := do
  if ← accept ['#'] then
    let _ ← takeWhile isPlain
    return true
  else return false

/-- Takes what is left of a line on which nothing more is said. -/
def endOfLine : Reader Unit := do
  skipBlanks
  let _ ← comment
  guard ((← newline) || (← next?).isNone)

/-- Takes blanks, comments and the ends of lines. -/
def skipLines : Reader Unit := do
  skipBlanks
  let _ ← collect do
    let _ ← comment
    if ← newline then
      skipBlanks
      return some ()
    else return none

end MethodSurvey.Toml
