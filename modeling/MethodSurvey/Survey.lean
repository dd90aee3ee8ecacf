import MethodSurvey.Report
import MethodSurvey.SourceListing

/-! Scanning a list of files, and the whole of a directory, into one registry. -/

namespace MethodSurvey

/-- A registry with the files that were scanned into it. -/
structure Survey where
  registry : Registry
  summary : Summary := {}

namespace Survey

/-- Adds a file. One that cannot be scanned to its end counts as failed, and what it
gave before stays. -/
def addFile (t : Tree) (style : DeclarationStyle) (s : Survey) (p : Path) : Survey :=
  let scan := t.scanFile style p
  { registry := s.registry.recordAll scan.events
    summary := match scan.outcome with
      | .ok _ => { s.summary with scanned := s.summary.scanned + 1 }
      | .error e =>
        { s.summary with
          failed := s.summary.failed + 1
          warnings := s.summary.warnings ++ [e.message] } }

/-- Scans files in the order given. -/
def ofFiles (t : Tree) (style : DeclarationStyle) (registry : Registry) (files : List Path) :
    Survey :=
  files.foldl (addFile t style) { registry }

/-- Scans the source files of a directory. -/
def ofDirectory (t : Tree) (style : DeclarationStyle) (keying : Keying) (directory : Path) :
    Except NotADirectory Survey :=
  (t.sourceFiles directory).map (ofFiles t style { keying })

end Survey

end MethodSurvey
