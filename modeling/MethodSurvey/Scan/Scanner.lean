import MethodSurvey.Comment
import MethodSurvey.Declaration
import MethodSurvey.Naming
import MethodSurvey.Scan.Event
import MethodSurvey.Scan.Tracker

/-! The scan of the lines of one file: comment lines are passed over, code lines go
to the tracker, and the events come out in the order of the lines. -/

namespace MethodSurvey

/-- What one file amounted to. -/
structure Stats where
  lines : Nat := 0
  codeLines : Nat := 0
  declarations : Nat := 0
  methods : Nat := 0
  /-- Whether a method was still open at the end. -/
  unclosed : Bool := false
  deriving DecidableEq, Repr

structure Scanner where
  insideComment : Bool := false
  tracker : Tracker := {}
  stats : Stats := {}
  deriving DecidableEq, Repr

namespace Scanner

/-- The trimmed line if it is code, and whether a block comment is open after it. -/
def codeLine (insideComment : Bool) (line : List Char) : Option (List Char) × Bool :=
  match LineKind.classify insideComment (Text.trim line) with
  | (.code, inside) => (some (Text.trim line), inside)
  | (.comment, inside) => (none, inside)

/-- The events of a code line: its declaration before the method that it closes. -/
def eventsOf (file : String) (declared : Option (List Char))
    (closed : Option (List Char × Nat)) : List Event :=
  (declared.map fun name => Event.declaration (conforms name)).toList ++
    (closed.map fun (name, complexity) =>
      Event.method ⟨String.ofList name, file, complexity⟩).toList

def step (profile : Profile) (file : String) (s : Scanner) (line : List Char) :
    Scanner × List Event :=
  match codeLine s.insideComment line with
  | (none, inside) =>
    ({ s with insideComment := inside, stats.lines := s.stats.lines + 1 }, [])
  | (some code, inside) =>
    let declared := profile.declaredName? code
    let (tracker, closed) := s.tracker.step declared code
    ({ insideComment := inside
       tracker
       stats := { s.stats with
         lines := s.stats.lines + 1
         codeLines := s.stats.codeLines + 1
         declarations := s.stats.declarations + declared.toList.length
         methods := s.stats.methods + closed.toList.length } },
      eventsOf file declared closed)

/-- Scans lines one after another; the events stand in the order of their lines. -/
def scan (profile : Profile) (file : String) : Scanner → List (List Char) → Scanner × List Event
  | s, [] => (s, [])
  | s, line :: lines =>
    let (s, events) := s.step profile file line
    let (s, later) := s.scan profile file lines
    (s, events ++ later)

/-- The end of the input. A method that is open is dropped. -/
def finish (s : Scanner) : Stats :=
  { s.stats with unclosed := s.tracker.isOpen }

end Scanner

end MethodSurvey
