/-! What a scan reports: declarations as they are met and methods as they close. -/

namespace MethodSurvey

/-- A method whose body closed, the file it stands in and its complexity. -/
structure MethodRecord where
  name : String
  file : String
  complexity : Nat
  deriving DecidableEq, Repr

inductive Event where
  /-- A declaration line, and whether the declared name conforms. -/
  | declaration (conforming : Bool)
  | method (record : MethodRecord)
  deriving DecidableEq, Repr

namespace Event

def conforming? : Event → Option Bool
  | declaration conforming => some conforming
  | method _ => none

def record? : Event → Option MethodRecord
  | declaration _ => none
  | method record => some record

end Event

end MethodSurvey
