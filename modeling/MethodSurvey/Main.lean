import MethodSurvey.Run
import Std.Time.DateTime.Timestamp

/-! The program. It copies what a run may look at from the file system into a tree, with the
faults that it meets, and prints what comes of the run. -/

namespace MethodSurvey.Main

def faultOf : IO.Error → Fault
  | .noFileOrDirectory .. => .missing
  | .inappropriateType _ 20 _ => .notADirectory
  | .inappropriateType _ 21 _ => .isADirectory
  | e => .other (toString e)

/-- What reading the file yields. -/
def streamOf (name : String) : IO Stream := do
  try
    return { bytes := (← IO.FS.readBinFile name).toList }
  catch e =>
    return { bytes := [], fault := some (faultOf e) }

/-- Copies what stands at a path, a directory without its entries. -/
def copyEntry (t : Tree) (name : String) : IO Tree := do
  let place := (← IO.currentDir) / name
  if ← place.isDir then return t.insert (Path.ofString name) .directory
  let stream ← streamOf name
  if stream.fault = some .missing then return t
  return t.insert (Path.ofString name) (.file stream)

/-- Copies a directory with the source files that stand directly in it, unless listing it
fails. -/
def copyDirectory (t : Tree) (name : String) : IO (Tree × Option Fault) := do
  let place := (← IO.currentDir) / name
  if !(← place.isDir) then return (t, none)
  let mut copy := t.insert (Path.ofString name) .directory
  try
    for entry in ← place.readDir do
      let path := (Path.ofString name).join (Text.Utf8.encode entry.fileName.toList)
      if path.language?.isSome then
        try
          if (← entry.path.metadata).type == .file then
            copy := copy.insert path (.file (← streamOf path.display))
        catch _ => pure ()
    return (copy, none)
  catch e => return (copy, some (faultOf e))

/-- What a run with these arguments may look at. -/
def treeFor (workingDirectory : Path) (arguments : List CommandLine.Argument) :
    IO (Tree × Option Fault) := do
  let t : Tree := { base := workingDirectory.names }
  match CommandLine.read arguments with
  | .error _ => return (t, none)
  | .ok a =>
    let config := match a.config? with
      | some path => path.display
      | none => (Path.join ⟨[]⟩ ConfigFile.name).display
    let t ← copyEntry t config
    match a.directory? with
    | none => return (t, none)
    | some path => copyDirectory t path.display

def now : IO Nat := do
  return (← Std.Time.Timestamp.now).toMillisecondsSinceUnixEpoch.val.toNat

/-- How a configuration that is no TOML document, or has values that cannot be taken, is
spoken of. -/
def malformedDetail : String := "not a valid configuration"

def workingDirectory : IO (Except Fault Path) := do
  try
    return .ok (Path.ofString (← IO.currentDir).toString)
  catch e => return .error (faultOf e)

/-- Writes to the standard output, and gives the fault that stops it. -/
def write (output : String) : IO (Option Fault) := do
  try
    let stdout ← IO.getStdout
    stdout.putStr output
    stdout.flush
    return none
  catch e => return some (faultOf e)

def run (arguments : List CommandLine.Argument) : IO UInt32 := do
  let (title, tree, faults) ← match ← workingDirectory with
    | .error fault => pure (⟨[]⟩, {}, { workingDirectory? := some fault : Run.Faults })
    | .ok path => do
      let (tree, listing?) ← treeFor path arguments
      pure (path, tree, { listing? := fun _ => listing? })
  let timestamp ← now
  let outcome := Run.outcome tree title timestamp arguments faults
  -- How much was written before a fault changes nothing in what is left to do.
  let outcome := match ← write outcome.output with
    | none => outcome
    | some fault =>
      Run.outcome tree title timestamp arguments { faults with writing? := some (0, fault) }
  IO.eprint (outcome.errorOutput malformedDetail)
  return outcome.exitCode.toUInt32

end MethodSurvey.Main

def main (arguments : List String) : IO UInt32 :=
  MethodSurvey.Main.run (arguments.map .ofString)
