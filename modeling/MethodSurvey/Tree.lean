import MethodSurvey.Fault
import MethodSurvey.Path

/-! A directory tree with symbolic links, and the entries that paths lead to. -/

namespace MethodSurvey

/-- The names that lead from the root to an entry, without links or parents. -/
abbrev Location := List FileName

inductive Entry where
  | file (content : Stream)
  | directory
  | link (target : Path)
  deriving DecidableEq, Repr

/-- A file may have a fault in it. A directory has none: all its entries can be listed. -/
structure Tree where
  /-- The entries below the root, each at its own location. -/
  entries : List (Location × Entry) := []
  /-- The directory that relative paths start from. -/
  base : Location := []
  deriving DecidableEq, Repr

/-- Where a path ends once all links are followed. -/
inductive Place where
  | file (content : Stream)
  | directory (location : Location)
  deriving DecidableEq, Repr

namespace Tree

def entry? (t : Tree) (location : Location) : Option Entry :=
  if location = [] then some .directory else t.entries.lookup location

/-- Takes the steps one after another from a directory. A link is handed to `follow`
with the directory that its target starts from and the steps that are left. -/
def walkWith (t : Tree) (follow : Location → List FileName → Except Fault Place) :
    Location → List FileName → Except Fault Place
  | here, [] => .ok (.directory here)
  | here, step :: steps =>
    if step = [] ∨ step = Path.here then walkWith t follow here steps
    else if step = Path.parent then walkWith t follow here.dropLast steps
    else match t.entry? (here ++ [step]) with
      | none => .error .missing
      | some .directory => walkWith t follow (here ++ [step]) steps
      | some (.file content) => if steps = [] then .ok (.file content) else .error .notADirectory
      | some (.link target) =>
        follow (if target.isAbsolute then [] else here) (target.steps ++ steps)

/-- Takes the steps, following the given number of links at most. -/
def walk (t : Tree) : (links : Nat) → Location → List FileName → Except Fault Place
  | 0 => t.walkWith fun _ _ => .error .tooManyLinks
  | links + 1 => t.walkWith fun here steps => walk t links here steps

def linkLimit : Nat := 40

/-- Where the steps of a path start from. -/
def start (t : Tree) (p : Path) : Location :=
  if p.isAbsolute then [] else t.base

/-- The place that a path leads to. -/
def place (t : Tree) (p : Path) : Except Fault Place :=
  if p.bytes.contains 0 then .error .nulInPath
  else if p.bytes = [] then .error .missing
  else t.walk linkLimit (t.start p) p.steps

def isDirectory (t : Tree) (p : Path) : Bool :=
  match t.place p with
  | .ok (.directory _) => true
  | _ => false

def isFile (t : Tree) (p : Path) : Bool :=
  match t.place p with
  | .ok (.file _) => true
  | _ => false

/-- Opens a file. A directory can be opened too, and then cannot be read. -/
def openFile (t : Tree) (p : Path) : Except Fault Stream := do
  match ← t.place p with
  | .file content => return content
  | .directory _ => return { bytes := [], fault := some .isADirectory }

/-- The names of the direct entries of a directory. -/
def namesIn (t : Tree) (location : Location) : List FileName :=
  t.entries.filterMap fun (l, _) =>
    if l.dropLast = location then l.getLast? else none

def set (t : Tree) (location : Location) (entry : Entry) : Tree :=
  if t.entries.any (·.1 = location) then
    { t with entries := t.entries.map fun e => if e.1 = location then (location, entry) else e }
  else { t with entries := t.entries ++ [(location, entry)] }

/-- The directory that a name leads to from another; it is made if it is missing. -/
def enterDirectory (t : Tree) (here : Location) (name : FileName) : Tree × Location :=
  if name = Path.parent then (t, here.dropLast)
  else match t.entry? (here ++ [name]) with
    | none => (t.set (here ++ [name]) .directory, here ++ [name])
    | some (.link _) =>
      match t.walk linkLimit here [name] with
      | .ok (.directory location) => (t, location)
      | _ => (t, here ++ [name])
    | some _ => (t, here ++ [name])

/-- Puts an entry at the end of a path, with the directories that lead to it. -/
def insert (t : Tree) (p : Path) (entry : Entry) : Tree :=
  match p.names.getLast? with
  | none => t
  | some name =>
    let (t, here) := p.names.dropLast.foldl
      (fun (t, here) name => t.enterDirectory here name) (t, t.start p)
    t.set (here ++ [name]) entry

def ofEntries (entries : List (Path × Entry)) : Tree :=
  entries.foldl (fun t e => t.insert e.1 e.2) {}

end Tree

end MethodSurvey
