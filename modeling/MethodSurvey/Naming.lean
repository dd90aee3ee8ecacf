/-! The naming convention for methods: lower camel case in ASCII. -/

namespace MethodSurvey

/-- A name conforms if it starts with a lower-case letter and goes on with letters
and digits, all of them ASCII. -/
def conforms : List Char → Bool
  | [] => false
  | c :: name => c.isLower && name.all Char.isAlphanum

end MethodSurvey
