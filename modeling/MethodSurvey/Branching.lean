import MethodSurvey.Text.Occurrence

/-! The keywords that make a line count towards the complexity of a method. -/

namespace MethodSurvey

def controlKeywords : List String :=
  ["if", "else", "switch", "case", "for", "while", "default"]

/-- Whether a keyword stands anywhere in the line, also as a part of a longer word. -/
def hasControlKeyword (line : List Char) : Bool :=
  controlKeywords.any fun word => Text.contains word.toList line

end MethodSurvey
