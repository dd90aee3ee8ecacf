import MethodSurvey.Text.Pieces
import MethodSurvey.Text.Utf8

/-! Paths, as the bytes that a file system takes them for. -/

namespace MethodSurvey

/-- The name of a directory entry. -/
abbrev FileName := List UInt8

structure Path where
  bytes : List UInt8
  deriving DecidableEq, Repr

namespace Path

def slash : UInt8 := 47

/-- The name of the directory that a step leads from. -/
def here : FileName := [46]

/-- The name of its parent. -/
def parent : FileName := [46, 46]

/-- The name that the standard input goes by. -/
def dash : FileName := [45]

def ofString (s : String) : Path := ⟨Text.Utf8.encode s.toList⟩

/-- The path as text, malformed bytes replaced. -/
def display (p : Path) : String := String.ofList (Text.Utf8.decodeLossy p.bytes)

/-- Whether the path starts from the root. -/
def isAbsolute (p : Path) : Bool := p.bytes.head? == some slash

/-- What stands between the slashes. A step may be empty. -/
def steps (p : Path) : List FileName := Text.pieces slash p.bytes

/-- The steps that lead anywhere. -/
def names (p : Path) : List FileName := p.steps.filter fun s => s ≠ [] ∧ s ≠ here

/-- Whether the path is a dash and nothing else, which stands for the standard input. -/
def isStandardInput (p : Path) : Bool :=
  p.steps.head? == some dash && p.names == [dash]

/-- The last name, unless it is that of a parent. -/
def fileName? (p : Path) : Option FileName :=
  p.names.getLast?.filter (· ≠ parent)

/-- The file name as text, or the whole path if it ends in none. -/
def displayName (p : Path) : String :=
  match p.fileName? with
  | some name => String.ofList (Text.Utf8.decodeLossy name)
  | none => p.display

/-- The path of an entry of the directory. -/
def join (directory : Path) (name : FileName) : Path :=
  if directory.bytes = [] ∨ directory.bytes.getLast? = some slash then ⟨directory.bytes ++ name⟩
  else ⟨directory.bytes ++ slash :: name⟩

end Path

end MethodSurvey
