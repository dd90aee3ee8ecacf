import MethodSurvey.Language
import MethodSurvey.Declaration.Leading
import MethodSurvey.Declaration.Strict

/-! The lines that declare a method, by language and style. -/

namespace MethodSurvey

/-- How declarations are recognized. -/
inductive DeclarationStyle where
  /-- By the beginning of the line. -/
  | leading
  /-- By the whole line. -/
  | strict
  deriving DecidableEq, Repr

namespace DeclarationStyle

def all : List DeclarationStyle := [leading, strict]

def name : DeclarationStyle → String
  | leading => "prefix"
  | strict => "strict"

def named? (s : String) : Option DeclarationStyle :=
  all.find? (·.name == s)

end DeclarationStyle

/-- The rules under which one file is scanned. -/
structure Profile where
  language : Language
  style : DeclarationStyle
  deriving DecidableEq, Repr

/-- The name of the method that the line declares. -/
def Profile.declaredName? (profile : Profile) (line : List Char) : Option (List Char) :=
  match profile.language, profile.style with
  | .java, .leading => Declaration.Leading.javaName? line
  | .kotlin, .leading => Declaration.Leading.kotlinName? line
  | .java, .strict => Declaration.Strict.javaName? line
  | .kotlin, .strict => Declaration.Strict.kotlinName? line

end MethodSurvey
