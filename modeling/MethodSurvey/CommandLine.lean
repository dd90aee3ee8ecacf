import MethodSurvey.Numeric.Numeral
import MethodSurvey.Path
import MethodSurvey.Settings

/-! The command line. Arguments are taken from left to right, and the first one that
cannot be accepted ends the reading. The value of an option is judged when the next
option or directory is accepted, or at the end, so that an unknown argument which
follows a bad value is what is reported. -/

namespace MethodSurvey.CommandLine

/-- An argument, as the bytes that it is given in. They need not be text. -/
structure Argument where
  bytes : List UInt8
  deriving DecidableEq, Repr

namespace Argument

@[match_pattern]
def minus : UInt8 := 45

def equals : UInt8 := 61

def ofString (s : String) : Argument := ⟨Text.Utf8.encode s.toList⟩

/-- The argument as text, malformed bytes replaced. What stands for them is in no name and no
value that is accepted, other than a path. -/
def text (a : Argument) : String := String.ofList (Text.Utf8.decodeLossy a.bytes)

instance : Coe String Argument := ⟨ofString⟩

instance : Coe (List String) (List Argument) := ⟨List.map ofString⟩

end Argument

/-- What a value on the command line can be meant for. -/
inductive Slot where
  | directory
  | top
  | format
  | declarations
  | keying
  | config
  deriving DecidableEq, Repr

/-- The options that take a value. -/
def options : List (String × Slot) :=
  [("top", .top), ("format", .format), ("declarations", .declarations),
    ("key-mode", .keying), ("config", .config)]

/-- The options that take none. -/
inductive Flag where
  | verbose
  | help
  | version
  deriving DecidableEq, Repr

def flags : List (String × Flag) :=
  [("verbose", .verbose), ("help", .help), ("version", .version)]

def shortFlags : List (Char × Flag) :=
  [('v', .verbose), ('h', .help), ('V', .version)]

/-- Why the arguments lead to no run. -/
inductive Stop where
  | helpWanted
  | versionWanted
  | unknownArgument (argument : String)
  | valueMissing (slot : Slot)
  | emptyPath (slot : Slot)
  /-- A value that is not one of those listed for its option. -/
  | unlistedValue (slot : Slot) (value : String)
  | badLength (value : String)
  | repeated (slot : Slot)
  /-- A value attached to a flag. -/
  | unwantedValue (flag : Flag) (value : String)
  deriving DecidableEq, Repr

/-- A slot as messages name it. -/
def Slot.label : Slot → String
  | directory => "[DIR]"
  | top => "--top <N>"
  | format => "--format <FORMAT>"
  | declarations => "--declarations <DECLARATIONS>"
  | keying => "--key-mode <KEY_MODE>"
  | config => "--config <PATH>"

def Flag.label : Flag → String
  | verbose => "--verbose"
  | help => "--help"
  | version => "--version"

/-- What went wrong. Nothing did where help or the version was asked for. -/
def Stop.message : Stop → String
  | helpWanted | versionWanted => ""
  | unknownArgument argument => "error: unexpected argument '" ++ argument ++ "' found\n"
  | valueMissing slot | emptyPath slot => "error: a value is required for '" ++ slot.label ++ "'\n"
  | unlistedValue slot value =>
    "error: invalid value '" ++ value ++ "' for '" ++ slot.label ++ "'\n"
  | badLength value => "error: invalid value '" ++ value ++ "' for '" ++ Slot.top.label ++ "'\n"
  | repeated slot => "error: '" ++ slot.label ++ "' cannot be used more than once\n"
  | unwantedValue flag value =>
    "error: unexpected value '" ++ value ++ "' for '" ++ flag.label ++ "'\n"

/-- Only what was asked for counts as success. -/
def Stop.exitCode : Stop → Nat
  | helpWanted | versionWanted => 0
  | _ => 2

structure Arguments where
  directory? : Option Path := none
  config? : Option Path := none
  preferences : Preferences := {}
  verbosity : Nat := 0
  deriving DecidableEq, Repr

/-- The highest verbosity that is told apart. -/
def verbosityLimit : Nat := 255

/-- Reads the length of a ranking. A plus sign may stand before it. -/
def readLength? (value : String) : Option Nat := do
  let n ← match value.toList with
    | '+' :: digits => Numeral.read? 10 digits
    | digits => Numeral.read? 10 digits
  if 1 ≤ n ∧ n ≤ lengthLimit then some n else none

def readPath (slot : Slot) (value : Argument) : Except Stop Path :=
  if value.bytes.isEmpty then .error (.emptyPath slot) else .ok ⟨value.bytes⟩

namespace Arguments

def isSet (a : Arguments) : Slot → Bool
  | .directory => a.directory?.isSome
  | .top => a.preferences.top?.isSome
  | .format => a.preferences.format?.isSome
  | .declarations => a.preferences.declarations?.isSome
  | .keying => a.preferences.keying?.isSome
  | .config => a.config?.isSome

/-- Reads a value for a slot. -/
def put (a : Arguments) (slot : Slot) (value : Argument) : Except Stop Arguments :=
  let listed {α : Type} (choice : Option α) : Except Stop α :=
    match choice with
    | some x => .ok x
    | none => .error (.unlistedValue slot value.text)
  match slot with
  | .directory => do return { a with directory? := some (← readPath slot value) }
  | .config => do return { a with config? := some (← readPath slot value) }
  | .top =>
    match readLength? value.text with
    | some n => .ok { a with preferences := { a.preferences with top? := some n } }
    | none => .error (.badLength value.text)
  | .format => do
    let f ← listed (Format.named? value.text)
    return { a with preferences := { a.preferences with format? := some f } }
  | .declarations => do
    let d ← listed (DeclarationStyle.named? value.text)
    return { a with preferences := { a.preferences with declarations? := some d } }
  | .keying => do
    let k ← listed (Keying.labelled? value.text)
    return { a with preferences := { a.preferences with keying? := some k } }

/-- Fills a slot with the value that was given for it, if one was. -/
def fill (a : Arguments) (slot : Slot) : Option Argument → Except Stop Arguments
  | none => .error (.valueMissing slot)
  | some value => if a.isSet slot then .error (.repeated slot) else a.put slot value

def raise (a : Arguments) : Flag → Except Stop Arguments
  | .verbose => .ok { a with verbosity := min (a.verbosity + 1) verbosityLimit }
  | .help => .error .helpWanted
  | .version => .error .versionWanted

end Arguments

/-- What has been read of a command line. -/
structure Reading where
  arguments : Arguments := {}
  /-- The slot that was met last, with its value if there was one, not yet judged. -/
  pending : Option (Slot × Option Argument) := none
  /-- Whether options are no longer looked for. -/
  positionalOnly : Bool := false

namespace Reading

/-- Judges what is pending. -/
def settle (r : Reading) : Except Stop Reading :=
  match r.pending with
  | none => .ok r
  | some (slot, value) => do
    return { r with arguments := ← r.arguments.fill slot value, pending := none }

def flag (r : Reading) (f : Flag) : Except Stop Reading := do
  let r ← r.settle
  return { r with arguments := ← r.arguments.raise f }

/-- An option by its name, with the value that is attached to it. -/
def option (r : Reading) (name : String) (attached : Option Argument) : Except Stop Reading :=
  match options.lookup name, flags.lookup name with
  | some slot, _ => do
    let r ← r.settle
    match attached with
    | some _ => settle { r with pending := some (slot, attached) }
    | none => return { r with pending := some (slot, none) }
  | none, some f =>
    match attached with
    | some value => .error (.unwantedValue f value.text)
    | none => r.flag f
  | none, none => .error (.unknownArgument ("--" ++ name))

/-- Flags in one argument, a letter each. -/
def cluster (r : Reading) (letters : List Char) : Except Stop Reading :=
  letters.foldlM
    (fun r c => match shortFlags.lookup c with
      | some f => r.flag f
      | none => .error (.unknownArgument (String.ofList ['-', c])))
    r

def directory (r : Reading) (value : Argument) : Except Stop Reading :=
  let taken := r.arguments.isSet .directory || r.pending.any (·.1 == .directory)
  if taken then .error (.unknownArgument value.text)
  else do
    let r ← r.settle
    return { r with pending := some (.directory, some value) }

/-- An argument that names no option: the value of the option before it, or the
directory. -/
def value (r : Reading) (argument : Argument) : Except Stop Reading :=
  match r.pending with
  | some (slot, none) => .ok { r with pending := some (slot, some argument) }
  | _ => r.directory argument

def step (r : Reading) (argument : Argument) : Except Stop Reading :=
  if r.positionalOnly then r.directory argument
  else match argument.bytes with
    | [Argument.minus, Argument.minus] => .ok { r with positionalOnly := true }
    | Argument.minus :: Argument.minus :: long =>
      let name := Argument.text ⟨long.takeWhile (· != Argument.equals)⟩
      match long.dropWhile (· != Argument.equals) with
      | [] => r.option name none
      | _ :: attached => r.option name (some ⟨attached⟩)
    | Argument.minus :: c :: letters => r.cluster (Text.Utf8.decodeLossy (c :: letters))
    | _ => r.value argument

end Reading

/-- Reads the arguments of a run, the name of the program not among them. -/
def read (arguments : List Argument) : Except Stop Arguments := do
  let r ← arguments.foldlM Reading.step {}
  return (← r.settle).arguments

end MethodSurvey.CommandLine
