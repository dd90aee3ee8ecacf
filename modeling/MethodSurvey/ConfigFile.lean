import MethodSurvey.Config
import MethodSurvey.Tree

/-! The configuration file of a run. One that is named must be there; otherwise the one
in the working directory is taken if it is a file. -/

namespace MethodSurvey

inductive ConfigError where
  | unreadable (path : Path) (fault : Fault)
  | malformed (path : Path)
  /-- A ranking without rows was asked for. -/
  | zeroLength
  deriving DecidableEq, Repr

/-- The messages of an error, the outermost first. What is wrong in a malformed file is
worded by `detail`. -/
def ConfigError.messages (detail : String) : ConfigError → List String
  | unreadable path fault =>
    ["Failed to read config " ++ path.display ++ ": " ++ fault.message, fault.message]
  | malformed path => ["Failed to parse config " ++ path.display ++ ": " ++ detail]
  | zeroLength => ["Invalid config value: [report] top must be at least 1"]

namespace ConfigFile

def name : FileName := Text.Utf8.encode "jvmetrics.toml".toList

/-- Loads the file at `path`, which messages call `title`. -/
def load (t : Tree) (path title : Path) : Except ConfigError Preferences := do
  let bytes ← ((t.openFile path).bind Stream.contents).mapError (.unreadable title)
  match Text.Utf8.decode? bytes with
  | none => .error (.unreadable title .notUtf8)
  | some text =>
    match Config.parse? text with
    | none => .error (.malformed title)
    | some p => if p.top? = some 0 then .error .zeroLength else .ok p

/-- Loads the named file, or the one in the directory, which messages call `title`. -/
def find (t : Tree) (named? : Option Path) (directory title : Path) :
    Except ConfigError (Option Preferences) :=
  match named? with
  | some path => some <$> load t path path
  | none =>
    if t.isFile (directory.join name) then
      some <$> load t (directory.join name) (title.join name)
    else .ok none

end ConfigFile

end MethodSurvey
