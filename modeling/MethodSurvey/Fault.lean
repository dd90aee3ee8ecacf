/-! Why a file could not be opened or read, and what reading one yields. -/

namespace MethodSurvey

inductive Fault where
  | missing
  | notADirectory
  | isADirectory
  | tooManyLinks
  | nulInPath
  | notUtf8
  | other (message : String)
  deriving DecidableEq, Repr

def Fault.message : Fault → String
  | missing => "No such file or directory (os error 2)"
  | notADirectory => "Not a directory (os error 20)"
  | isADirectory => "Is a directory (os error 21)"
  | tooManyLinks => "Too many levels of symbolic links (os error 40)"
  | nulInPath => "file name contained an unexpected NUL byte"
  | notUtf8 => "stream did not contain valid UTF-8"
  | other message => message

/-- What reading a file yields: bytes, and after them the end or a fault. -/
structure Stream where
  bytes : List UInt8
  fault : Option Fault := none
  deriving DecidableEq, Repr

/-- All bytes of a stream that comes to its end. -/
def Stream.contents (stream : Stream) : Except Fault (List UInt8) :=
  match stream.fault with
  | none => .ok stream.bytes
  | some fault => .error fault

end MethodSurvey
