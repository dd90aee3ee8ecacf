/-! Reading and writing UTF-8. The reader takes one byte at a time and yields
characters and malformed pieces in order; a malformed piece is a byte that can
start no character, or the longest start of a character that the next byte does
not continue. -/

namespace MethodSurvey.Text.Utf8

/-- A character that has begun: its value so far, how many bytes follow the next
one, and the range in which the next one must lie. -/
structure Unfinished where
  value : Nat
  later : Nat
  low : UInt8
  high : UInt8

/-- A byte where a character may begin. -/
def start (b : UInt8) : List (Option Char) × Option Unfinished :=
  if b < 0x80 then ([some (Char.ofNat b.toNat)], none)
  else if b < 0xC2 then ([none], none)
  else if b < 0xE0 then ([], some ⟨b.toNat - 0xC0, 0, 0x80, 0xBF⟩)
  else if b = 0xE0 then ([], some ⟨0, 1, 0xA0, 0xBF⟩)
  else if b = 0xED then ([], some ⟨0xD, 1, 0x80, 0x9F⟩)
  else if b < 0xF0 then ([], some ⟨b.toNat - 0xE0, 1, 0x80, 0xBF⟩)
  else if b = 0xF0 then ([], some ⟨0, 2, 0x90, 0xBF⟩)
  else if b < 0xF4 then ([], some ⟨b.toNat - 0xF0, 2, 0x80, 0xBF⟩)
  else if b = 0xF4 then ([], some ⟨4, 2, 0x80, 0x8F⟩)
  else ([none], none)

/-- What one byte yields, `none` being a malformed piece, and what it leaves open. -/
def step : Option Unfinished → UInt8 → List (Option Char) × Option Unfinished
  | none, b => start b
  | some u, b =>
    if u.low ≤ b ∧ b ≤ u.high then
      let value := u.value * 64 + (b.toNat - 0x80)
      match u.later with
      | 0 => ([some (Char.ofNat value)], none)
      | later + 1 => ([], some ⟨value, later, 0x80, 0xBF⟩)
    else (none :: (start b).1, (start b).2)

def readFrom : Option Unfinished → List UInt8 → List (Option Char)
  | none, [] => []
  | some _, [] => [none]
  | u, b :: bytes => (step u b).1 ++ readFrom (step u b).2 bytes

/-- The characters of the bytes, `none` in the place of each malformed piece. -/
def read (bytes : List UInt8) : List (Option Char) :=
  readFrom none bytes

/-- The text of the bytes, with U+FFFD in the place of each malformed piece. -/
def decodeLossy (bytes : List UInt8) : List Char :=
  (read bytes).map (·.getD '\uFFFD')

/-- The text of well-formed bytes. -/
def decode? (bytes : List UInt8) : Option (List Char) :=
  (read bytes).mapM id

def encode (s : List Char) : List UInt8 :=
  s.flatMap String.utf8EncodeChar

end MethodSurvey.Text.Utf8
