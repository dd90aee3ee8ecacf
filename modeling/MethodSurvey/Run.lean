import MethodSurvey.CommandLine
import MethodSurvey.ConfigFile
import MethodSurvey.Hints
import MethodSurvey.Report.Receipt
import MethodSurvey.Report.Text
import MethodSurvey.Survey

/-! A run of the program: from its arguments and the file tree to what it prints. What can fail
beside what the tree holds is given with the run. -/

namespace MethodSurvey

/-- Why a run fails once its arguments are accepted. -/
inductive Failure where
  /-- The working directory cannot be looked up. -/
  | noWorkingDirectory (fault : Fault)
  | config (error : ConfigError)
  | noDirectory
  | notADirectory (error : NotADirectory)
  /-- A directory that is there cannot be listed. -/
  | unlistable (directory : Path) (fault : Fault)
  deriving DecidableEq, Repr

namespace Failure

/-- The messages of a failure, the outermost first. What is wrong in a malformed
configuration is worded by `detail`. -/
def messages (detail : String) : Failure → List String
  | noWorkingDirectory fault => ["Failed to resolve current directory", fault.message]
  | config error => error.messages detail
  | noDirectory => ["No directory given"]
  | notADirectory error => [error.message]
  | unlistable directory fault =>
    ["Failed to list " ++ directory.display ++ ": " ++ fault.message, fault.message]

def explanation (detail : String) (f : Failure) : String :=
  Hints.explain (f.messages detail) ++ "\n"

end Failure

inductive Outcome where
  | printed (report : String)
  | stopped (reason : CommandLine.Stop)
  | failed (failure : Failure)
  /-- So many characters of the report are written before the output fails. -/
  | unwritten (report : String) (taken : Nat) (fault : Fault)
  deriving DecidableEq, Repr

namespace Outcome

def exitCode : Outcome → Nat
  | printed _ => 0
  | stopped reason => reason.exitCode
  | failed _ | unwritten _ _ _ => 1

/-- What goes to the standard output. -/
def output : Outcome → String
  | printed report => report
  | stopped .helpWanted => Tool.help
  | stopped .versionWanted => Tool.versionLine
  | stopped _ | failed _ => ""
  | unwritten report taken _ => String.ofList (report.toList.take taken)

/-- What goes to the standard error. -/
def errorOutput (detail : String) : Outcome → String
  | printed _ => ""
  | stopped reason => reason.message
  | failed failure => failure.explanation detail
  | unwritten _ _ fault => Hints.explain [fault.message] ++ "\n"

/-- The report of a run that gets as far as printing one. -/
def report? : Outcome → Option String
  | printed report | unwritten report _ _ => some report
  | stopped _ | failed _ => none

end Outcome

namespace Run

/-- What fails in a run beside what its tree holds. -/
structure Faults where
  /-- Looking up the working directory. -/
  workingDirectory? : Option Fault := none
  /-- Listing a directory that is there. -/
  listing? : Path → Option Fault := fun _ => none
  /-- Writing the report, once so many of its characters are out. -/
  writing? : Option (Nat × Fault) := none

/-- What a survey of a directory prints. -/
def output (settings : Settings) (directory : Path) (timestamp : Nat) (survey : Survey) :
    String :=
  let report := survey.registry.report settings.top
  match settings.format with
  | .text => report.text
  | .json =>
    report.receiptLine survey.summary
      { root := directory.display
        declarations := settings.declarations
        keying := settings.keying
        top := settings.top }
      timestamp

/-- Surveys a directory and reports on it. -/
def report (t : Tree) (faults : Faults) (settings : Settings) (directory : Path)
    (timestamp : Nat) : Except Failure String := do
  let survey ← (Survey.ofDirectory t settings.declarations settings.keying directory).mapError
    .notADirectory
  match faults.listing? directory with
  | some fault => .error (.unlistable directory fault)
  | none => .ok (output settings directory timestamp survey)

/-- The settings of a run. Messages call the working directory `title`. -/
def settings (t : Tree) (title : Path) (a : CommandLine.Arguments) :
    Except ConfigError Settings :=
  (ConfigFile.find t a.config? ⟨[]⟩ title).map fun found =>
    Settings.resolve a.preferences (found.getD {})

/-- A run whose arguments are accepted, up to its report. A bad configuration is reported
before a missing directory. -/
def perform (t : Tree) (faults : Faults) (title : Path) (timestamp : Nat)
    (a : CommandLine.Arguments) : Except Failure String :=
  match faults.workingDirectory? with
  | some fault => .error (.noWorkingDirectory fault)
  | none => do
    let settings ← (settings t title a).mapError .config
    match a.directory? with
    | none => .error .noDirectory
    | some directory => report t faults settings directory timestamp

/-- Writes a report. -/
def write (faults : Faults) (report : String) : Outcome :=
  match faults.writing? with
  | some (taken, fault) => .unwritten report taken fault
  | none => .printed report

/-- A run in a working directory that messages call `title`. -/
def outcome (t : Tree) (title : Path) (timestamp : Nat) (arguments : List CommandLine.Argument)
    (faults : Faults := {}) : Outcome :=
  match CommandLine.read arguments with
  | .error reason => .stopped reason
  | .ok a =>
    match perform t faults title timestamp a with
    | .error failure => .failed failure
    | .ok report => write faults report

end Run

end MethodSurvey
