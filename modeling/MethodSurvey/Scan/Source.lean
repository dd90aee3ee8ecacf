import MethodSurvey.Fault
import MethodSurvey.Scan.Scanner
import MethodSurvey.Text.Pieces

/-! Scanning a text, and scanning the bytes of a file as they are read. -/

namespace MethodSurvey

/-- The events of a scan, and its statistics unless a fault cut it short. -/
structure FileScan (ε : Type) where
  events : List Event
  outcome : Except ε Stats

namespace FileScan

variable {ε : Type}

def declarations (s : FileScan ε) : List Bool :=
  s.events.filterMap Event.conforming?

def methods (s : FileScan ε) : List MethodRecord :=
  s.events.filterMap Event.record?

end FileScan

namespace Source

/-- A line without the carriage return that belongs to its line feed. -/
def dropReturn (line : List Char) : List Char :=
  if line.getLast? = some '\r' then line.dropLast else line

/-- The lines of a text. They end at line feeds only. -/
def linesOfText (text : List Char) : List (List Char) :=
  (Text.completePieces '\n' text).map dropReturn ++
    if (Text.lastPiece '\n' text).isEmpty then [] else [Text.lastPiece '\n' text]

/-- A line of bytes, decoded on its own. -/
def decodeLine (bytes : List UInt8) : List Char :=
  ((Text.Utf8.decodeLossy bytes).reverse.dropWhile (· == '\r')).reverse

/-- The lines that can be had from a stream: a fault takes the place of the end, so
that a line which nothing terminates is lost to it. -/
def linesOfStream (stream : Stream) : List (List Char) :=
  match stream.fault with
  | none => (Text.allPieces 10 stream.bytes).map decodeLine
  | some _ => (Text.completePieces 10 stream.bytes).map decodeLine

def scanText (profile : Profile) (file : String) (text : List Char) : List Event × Stats :=
  let (s, events) := Scanner.scan profile file {} (linesOfText text)
  (events, s.finish)

/-- A fault ends the scan; what was recorded before stays, an open method is dropped. -/
def scanStream (profile : Profile) (file : String) (stream : Stream) : FileScan Fault :=
  let (s, events) := Scanner.scan profile file {} (linesOfStream stream)
  { events
    outcome := match stream.fault with
      | none => .ok s.finish
      | some fault => .error fault }

end Source

end MethodSurvey
