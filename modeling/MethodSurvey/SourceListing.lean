import MethodSurvey.SourceFile

/-! The source files that stand directly in a directory. -/

namespace MethodSurvey

/-- A path that should lead to a directory and does not. -/
structure NotADirectory where
  path : Path
  deriving DecidableEq, Repr

def NotADirectory.message (e : NotADirectory) : String :=
  "Invalid directory path: " ++ e.path.display

/-- The names that select a language: those of one language after those of the one
before it, each group in the order of the bytes. -/
def Language.sourceNames (names : List FileName) : List FileName :=
  all.flatMap fun language =>
    (names.filter fun name => ofFileName? name = some language).mergeSort fun a b => a ≤ b

/-- The source files of a directory by their paths, links to files included. The standard
input has none, even where a directory has its name. A directory of a tree can be listed, to its
last entry; one that cannot be is a fault of the run. -/
def Tree.sourceFiles (t : Tree) (directory : Path) : Except NotADirectory (List Path) :=
  match t.place directory with
  | .ok (.directory location) =>
    let files := (t.namesIn location).filter fun name => t.isFile (directory.join name)
    if directory.isStandardInput then .ok []
    else .ok ((Language.sourceNames files).map directory.join)
  | _ => .error ⟨directory⟩

end MethodSurvey
