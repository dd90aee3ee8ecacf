import MethodSurvey.Text.Utf8

/-! The source languages and the file names that select them. -/

namespace MethodSurvey

inductive Language where
  | java
  | kotlin
  deriving DecidableEq, Repr

namespace Language

/-- In the order in which their files are scanned. -/
def all : List Language := [java, kotlin]

def name : Language → String
  | java => "java"
  | kotlin => "kotlin"

/-- The end of the file names of the language. -/
def extension : Language → String
  | java => ".java"
  | kotlin => ".kt"

/-- The language of a file by its name; a name that is not UTF-8 selects none. -/
def ofFileName? (name : List UInt8) : Option Language := do
  let text ← Text.Utf8.decode? name
  all.find? fun language => language.extension.toList.isSuffixOf text

end Language

end MethodSurvey
