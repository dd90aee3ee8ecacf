import MethodSurvey.Scan.Source
import MethodSurvey.Tree

/-! Scanning one file of a tree. -/

namespace MethodSurvey

inductive ScanError where
  | unreadable (path : Path) (fault : Fault)
  | unsupported (path : Path)
  deriving DecidableEq, Repr

def ScanError.message : ScanError → String
  | unreadable path fault => "Failed to read " ++ path.display ++ ": " ++ fault.message
  | unsupported path => "Not a Java or Kotlin source file: " ++ path.display

def Path.language? (p : Path) : Option Language := do
  Language.ofFileName? (← p.fileName?)

/-- Scans the file at a path. What was recorded before a fault stays. -/
def Tree.scanFile (t : Tree) (style : DeclarationStyle) (p : Path) : FileScan ScanError :=
  match p.language? with
  | none => ⟨[], .error (.unsupported p)⟩
  | some language =>
    match t.openFile p with
    | .error fault => ⟨[], .error (.unreadable p fault)⟩
    | .ok stream =>
      let scan := Source.scanStream { language, style } p.displayName stream
      ⟨scan.events, scan.outcome.mapError (.unreadable p)⟩

end MethodSurvey
