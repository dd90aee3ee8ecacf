import MethodSurvey.Text.Occurrence
import MethodSurvey.Text.WordCharacter

/-! Declarations recognized by how a line begins. The name is what stands before
the first parenthesis, from an offset on that is counted in UTF-8 bytes. -/

namespace MethodSurvey.Declaration.Leading

def javaModifiers : List String :=
  ["private ", "protected ", "public "]

/-- Return types of Java methods, the one to look for first standing first. -/
def javaReturnTypes : List String :=
  ["void", "int", "long", "short", "double", "float", "boolean", "byte", "char", "String",
    "int[]", "long[]", "short[]", "double[]", "float[]", "boolean[]", "byte[]", "char[]",
    "String[]"]

/-- The offset just past the first space, or 0 if there is none. -/
def afterFirstSpace (line : List Char) : Nat :=
  match Text.before? [' '] line with
  | some start => Text.byteLength start + 1
  | none => 0

/-- The offset one byte past the first occurrence of the first listed return type
that occurs in the line at all. -/
def afterReturnType? (line : List Char) : Option Nat :=
  javaReturnTypes.findSome? fun word =>
    (Text.before? word.toList line).map fun start =>
      Text.byteLength start + Text.byteLength word.toList + 1

/-- What stands from an offset up to the first parenthesis. There is no name if
that is empty or if the offset lies inside a character. -/
def nameFrom? (offset : Nat) (line : List Char) : Option (List Char) := do
  let start ← Text.before? ['('] line
  let name ← Text.dropBytes? offset start
  if name.isEmpty then none else some name

def javaName? (line : List Char) : Option (List Char) :=
  if javaModifiers.any (·.toList.isPrefixOf line) then
    nameFrom? ((afterReturnType? line).getD (afterFirstSpace line)) line
  else none

/-- The word that opens a function, with what follows it. -/
def afterFun? : List Char → Option (List Char)
  | 'f' :: 'u' :: 'n' :: rest => if Text.endsWord rest then some rest else none
  | _ => none

def kotlinName? (line : List Char) : Option (List Char) :=
  if (afterFun? line).isSome then nameFrom? (afterFirstSpace line) line else none

end MethodSurvey.Declaration.Leading
