/-! The first occurrence of one text in another, and cuts measured in UTF-8 bytes. -/

namespace MethodSurvey.Text

/-- What stands before the first occurrence of `word`, or `none` without one. -/
def before? (word : List Char) : List Char → Option (List Char)
  | [] => if word.isEmpty then some [] else none
  | c :: s => if word.isPrefixOf (c :: s) then some [] else (before? word s).map (c :: ·)

def contains (word s : List Char) : Bool :=
  (before? word s).isSome

/-- The number of bytes of the text in UTF-8. -/
def byteLength : List Char → Nat
  | [] => 0
  | c :: s => c.utf8Size + byteLength s

/-- What is left after the first `n` bytes, or `none` if that cut lies inside a
character or beyond the end. -/
def dropBytes? : Nat → List Char → Option (List Char)
  | 0, s => some s
  | _ + 1, [] => none
  | n + 1, c :: s =>
    if c.utf8Size ≤ n + 1 then dropBytes? (n + 1 - c.utf8Size) s else none

end MethodSurvey.Text
