import MethodSurvey.Proofs.Files.Listing
import MethodSurvey.Proofs.Run.Arguments
import MethodSurvey.Proofs.Run.Configuration
import MethodSurvey.Run

/-! What decides a run whose arguments are accepted: its configuration has to load, its
directory has to be there, and nothing may fail beside. Then the report is printed, and
otherwise nothing is. -/

namespace MethodSurvey

theorem Tree.isDirectory_of_sourceFiles {t : Tree} {directory : Path} {files : List Path}
    (h : t.sourceFiles directory = .ok files) : t.isDirectory directory = true := by
  rw [sourceFiles] at h
  split at h
  next location hp => rw [isDirectory, hp]
  next => cases h

namespace Survey

variable {t : Tree} {style : DeclarationStyle} {keying : Keying} {directory : Path}

theorem ofDirectory_eq_ok_iff {survey : Survey} :
    ofDirectory t style keying directory = .ok survey ↔
      ∃ files, t.sourceFiles directory = .ok files ∧
        survey = ofFiles t style { keying } files := by
  cases hfiles : t.sourceFiles directory with
  | error e =>
    rw [ofDirectory, hfiles]
    refine iff_of_false (fun h => by cases h) ?_
    rintro ⟨files, h, -⟩
    cases h
  | ok files =>
    rw [ofDirectory, hfiles]
    constructor
    · intro h
      cases h
      exact ⟨files, rfl, rfl⟩
    · rintro ⟨files', h, rfl⟩
      cases h
      rfl

/-- A directory can be surveyed, and nothing else can. -/
theorem exists_ofDirectory_iff :
    (∃ survey, ofDirectory t style keying directory = .ok survey) ↔
      t.isDirectory directory = true := by
  constructor
  · rintro ⟨survey, h⟩
    obtain ⟨files, hfiles, -⟩ := ofDirectory_eq_ok_iff.mp h
    exact Tree.isDirectory_of_sourceFiles hfiles
  · intro h
    obtain ⟨files, hfiles⟩ := Tree.exists_sourceFiles h
    exact ⟨_, ofDirectory_eq_ok_iff.mpr ⟨files, hfiles, rfl⟩⟩

end Survey

theorem mapError_eq_ok_iff {ε δ α : Type} {f : ε → δ} {x : Except ε α} {a : α} :
    x.mapError f = .ok a ↔ x = .ok a := by
  cases x with
  | error e => exact iff_of_false (fun h => by cases h) (fun h => by cases h)
  | ok b => simp [Except.mapError]

namespace Run

open CommandLine (bind_eq_ok_iff)

/-- Nothing fails in a run on the directory beside what its tree holds. -/
structure Faults.Spare (faults : Faults) (directory : Path) : Prop where
  workingDirectory : faults.workingDirectory? = none
  listing : faults.listing? directory = none
  writing : faults.writing? = none

theorem Faults.spare_default (directory : Path) : ({} : Faults).Spare directory := ⟨rfl, rfl, rfl⟩

variable {t : Tree} {faults : Faults} {title : Path} {timestamp : Nat} {a : CommandLine.Arguments}

theorem settings_eq_ok_iff {s : Settings} :
    settings t title a = .ok s ↔ ∃ found, ConfigFile.Loads t ⟨[]⟩ a.config? found ∧
      s = Settings.resolve a.preferences (found.getD {}) := by
  cases hfind : ConfigFile.find t a.config? ⟨[]⟩ title with
  | error e =>
    rw [settings, hfind]
    refine iff_of_false (fun h => by cases h) ?_
    rintro ⟨found, hloads, -⟩
    rw [ConfigFile.find_eq_ok_iff.mpr hloads] at hfind
    cases hfind
  | ok found =>
    rw [settings, hfind]
    constructor
    · intro h
      cases h
      exact ⟨found, ConfigFile.find_eq_ok_iff.mp hfind, rfl⟩
    · rintro ⟨found', hloads, rfl⟩
      rw [ConfigFile.find_eq_ok_iff.mpr hloads] at hfind
      cases hfind
      rfl

theorem report_eq_ok_iff {s : Settings} {directory : Path} {printed : String} :
    report t faults s directory timestamp = .ok printed ↔
      faults.listing? directory = none ∧ ∃ survey,
        Survey.ofDirectory t s.declarations s.keying directory = .ok survey ∧
        printed = output s directory timestamp survey := by
  simp only [report, bind_eq_ok_iff, mapError_eq_ok_iff]
  cases hlisting : faults.listing? directory with
  | some fault =>
    refine iff_of_false ?_ (fun h => by cases h.1)
    rintro ⟨survey, -, h⟩
    cases h
  | none =>
    constructor
    · rintro ⟨survey, hsurvey, h⟩
      cases h
      exact ⟨rfl, survey, hsurvey, rfl⟩
    · rintro ⟨-, survey, hsurvey, rfl⟩
      exact ⟨survey, hsurvey, rfl⟩

/-- A run has a report where each of its stages goes well. -/
theorem perform_eq_ok_iff {printed : String} :
    perform t faults title timestamp a = .ok printed ↔
      faults.workingDirectory? = none ∧ ∃ s directory survey, settings t title a = .ok s ∧
        a.directory? = some directory ∧ faults.listing? directory = none ∧
        Survey.ofDirectory t s.declarations s.keying directory = .ok survey ∧
        printed = output s directory timestamp survey := by
  cases hworking : faults.workingDirectory? with
  | some fault =>
    rw [perform, hworking]
    exact iff_of_false (fun h => by cases h) (fun h => by cases h.1)
  | none =>
    simp only [perform, hworking, bind_eq_ok_iff, mapError_eq_ok_iff, true_and]
    constructor
    · rintro ⟨s, hsettings, h⟩
      cases hdirectory : a.directory? with
      | none =>
        rw [hdirectory] at h
        cases h
      | some directory =>
        rw [hdirectory] at h
        obtain ⟨hlisting, survey, hsurvey, hprinted⟩ := report_eq_ok_iff.mp h
        exact ⟨s, directory, survey, hsettings, rfl, hlisting, hsurvey, hprinted⟩
    · rintro ⟨s, directory, survey, hsettings, hdirectory, hlisting, hsurvey, hprinted⟩
      refine ⟨s, hsettings, ?_⟩
      rw [hdirectory]
      exact report_eq_ok_iff.mpr ⟨hlisting, survey, hsurvey, hprinted⟩

/-- A configuration that loads and a directory that is one are all that a run needs from its
tree. -/
theorem exists_perform_iff :
    (∃ printed, perform t faults title timestamp a = .ok printed) ↔
      faults.workingDirectory? = none ∧ (∃ found, ConfigFile.Loads t ⟨[]⟩ a.config? found) ∧
        ∃ directory, a.directory? = some directory ∧ t.isDirectory directory = true ∧
          faults.listing? directory = none := by
  constructor
  · rintro ⟨printed, h⟩
    obtain ⟨hworking, s, directory, survey, hsettings, hdirectory, hlisting, hsurvey, -⟩ :=
      perform_eq_ok_iff.mp h
    obtain ⟨found, hloads, -⟩ := settings_eq_ok_iff.mp hsettings
    have hd := Survey.exists_ofDirectory_iff.mp ⟨survey, hsurvey⟩
    exact ⟨hworking, ⟨found, hloads⟩, directory, hdirectory, hd, hlisting⟩
  · rintro ⟨hworking, ⟨found, hloads⟩, directory, hdirectory, hd, hlisting⟩
    have hsettings : settings t title a = .ok (Settings.resolve a.preferences (found.getD {})) :=
      settings_eq_ok_iff.mpr ⟨found, hloads, rfl⟩
    obtain ⟨survey, hsurvey⟩ := Survey.exists_ofDirectory_iff.mpr hd
    exact ⟨_, perform_eq_ok_iff.mpr
      ⟨hworking, _, directory, survey, hsettings, hdirectory, hlisting, hsurvey, rfl⟩⟩

section Outcome

variable {arguments : List CommandLine.Argument} {printed : String}

theorem outcome_of_ok (h : CommandLine.read arguments = .ok a)
    (hp : perform t faults title timestamp a = .ok printed) :
    outcome t title timestamp arguments faults = write faults printed := by
  simp only [outcome, h, hp]

theorem outcome_of_error {failure : Failure} (h : CommandLine.read arguments = .ok a)
    (hp : perform t faults title timestamp a = .error failure) :
    outcome t title timestamp arguments faults = .failed failure := by
  simp only [outcome, h, hp]

theorem report?_write : (write faults printed).report? = some printed := by
  rw [write]
  split <;> rfl

theorem write_of_no_fault (h : faults.writing? = none) : write faults printed = .printed printed := by
  rw [write, h]

theorem exitCode_eq_zero_iff (h : CommandLine.read arguments = .ok a) :
    (outcome t title timestamp arguments faults).exitCode = 0 ↔
      (∃ printed, perform t faults title timestamp a = .ok printed) ∧ faults.writing? = none := by
  cases hperform : perform t faults title timestamp a with
  | error failure =>
    rw [outcome_of_error h hperform]
    refine iff_of_false Nat.one_ne_zero ?_
    rintro ⟨⟨printed, hp⟩, -⟩
    cases hp
  | ok printed =>
    rw [outcome_of_ok h hperform, write]
    cases hwriting : faults.writing? with
    | none => exact iff_of_true rfl ⟨⟨printed, rfl⟩, rfl⟩
    | some fault => exact iff_of_false Nat.one_ne_zero (fun h => by cases h.2)

theorem fails_of_exitCode_ne_zero (h : CommandLine.read arguments = .ok a)
    (hne : (outcome t title timestamp arguments faults).exitCode ≠ 0) :
    let run := outcome t title timestamp arguments faults
    run.exitCode = 1 ∧ (faults.writing? = none → run.output = "") ∧
      run.output.toList <+: (run.report?.getD "").toList := by
  intro run
  cases hperform : perform t faults title timestamp a with
  | error failure =>
    rw [show run = .failed failure from outcome_of_error h hperform]
    exact ⟨rfl, fun _ => rfl, List.prefix_rfl⟩
  | ok printed =>
    have hrun : run = write faults printed := outcome_of_ok h hperform
    rw [write] at hrun
    cases hwriting : faults.writing? with
    | none =>
      rw [hwriting] at hrun
      exact absurd (congrArg Outcome.exitCode hrun) hne
    | some cut =>
      have hrun : run = .unwritten printed cut.1 cut.2 := by rw [hrun, hwriting]
      have hpart : run.output.toList <+: (run.report?.getD "").toList := by
        rw [hrun, Outcome.output, String.toList_ofList]
        exact List.take_prefix _ _
      exact ⟨hrun ▸ rfl, fun h => (Option.some_ne_none cut h).elim, hpart⟩

theorem outcome_of_spare {found : Option Preferences} {directory : Path} {survey : Survey}
    (h : CommandLine.read arguments = .ok a)
    (hloads : ConfigFile.Loads t ⟨[]⟩ a.config? found)
    (hdirectory : a.directory? = some directory) (hspare : faults.Spare directory)
    (hsurvey :
      let s := Settings.resolve a.preferences (found.getD {})
      Survey.ofDirectory t s.declarations s.keying directory = .ok survey) :
    outcome t title timestamp arguments faults = .printed
      (output (Settings.resolve a.preferences (found.getD {})) directory timestamp survey) := by
  have hsettings : settings t title a = .ok (Settings.resolve a.preferences (found.getD {})) :=
    settings_eq_ok_iff.mpr ⟨found, hloads, rfl⟩
  have hperform : perform t faults title timestamp a =
      .ok (output (Settings.resolve a.preferences (found.getD {})) directory timestamp survey) :=
    perform_eq_ok_iff.mpr ⟨hspare.workingDirectory, _, directory, survey, hsettings, hdirectory,
      hspare.listing, hsurvey, rfl⟩
  exact (outcome_of_ok h hperform).trans (write_of_no_fault hspare.writing)

end Outcome

/-- A run with accepted arguments succeeds exactly where its configuration loads, the directory
that it is given is one, and nothing fails beside. Then it prints the report on that directory
under the settings that the command line and the configuration make up, in the format that they
choose. Otherwise it fails, and prints nothing unless it is the printing that fails: then a
beginning of the report is printed. -/
theorem outcome_decided (t : Tree) (title : Path) (timestamp : Nat) (faults : Faults)
    {arguments : List CommandLine.Argument} {a : CommandLine.Arguments}
    (h : CommandLine.read arguments = .ok a) :
    let run := outcome t title timestamp arguments faults
    (run.exitCode = 0 ↔ (∃ found, ConfigFile.Loads t ⟨[]⟩ a.config? found) ∧
        ∃ directory, a.directory? = some directory ∧ t.isDirectory directory = true ∧
          faults.Spare directory) ∧
      (∀ found directory, ConfigFile.Loads t ⟨[]⟩ a.config? found →
        a.directory? = some directory → t.isDirectory directory = true →
        faults.Spare directory →
          let settings := Settings.resolve a.preferences (found.getD {})
          ∃ survey,
            Survey.ofDirectory t settings.declarations settings.keying directory = .ok survey ∧
            let report := survey.registry.report settings.top
            (settings.format = .text → run.output = report.text) ∧
            (settings.format = .json → run.output = report.receiptLine survey.summary
              { root := directory.display
                declarations := settings.declarations
                keying := settings.keying
                top := settings.top }
              timestamp)) ∧
      (run.exitCode ≠ 0 → run.exitCode = 1 ∧ (faults.writing? = none → run.output = "") ∧
        run.output.toList <+: (run.report?.getD "").toList) := by
  intro run
  refine ⟨?_, ?_, fails_of_exitCode_ne_zero h⟩
  · rw [exitCode_eq_zero_iff h, exists_perform_iff]
    constructor
    · rintro ⟨⟨hworking, hloads, directory, hdirectory, hd, hlisting⟩, hwriting⟩
      exact ⟨hloads, directory, hdirectory, hd, hworking, hlisting, hwriting⟩
    · rintro ⟨hloads, directory, hdirectory, hd, hspare⟩
      exact ⟨⟨hspare.workingDirectory, hloads, directory, hdirectory, hd, hspare.listing⟩,
        hspare.writing⟩
  · intro found directory hloads hdirectory hd hspare settings
    obtain ⟨survey, hsurvey⟩ :
        ∃ survey,
          Survey.ofDirectory t settings.declarations settings.keying directory = .ok survey :=
      Survey.exists_ofDirectory_iff.mpr hd
    have hprinted : run.output = output settings directory timestamp survey := by
      rw [show run = .printed _ from outcome_of_spare h hloads hdirectory hspare hsurvey]
      rfl
    refine ⟨survey, hsurvey, fun hformat => ?_, fun hformat => ?_⟩
    · rw [hprinted, output, hformat]
    · rw [hprinted, output, hformat]

def configuration : String :=
  "scan.key_mode = \x22file\x22\n[report]\ntop = 1\nformat = \x22json\x22"

/-- A configuration in the working directory, and one that asks for no rows. -/
def configured : Tree :=
  Tree.ofEntries
    [(.ofString "jvmetrics.toml", .file { bytes := Text.Utf8.encode configuration.toList }),
      (.ofString "rowless.toml", .file { bytes := Text.Utf8.encode "report.top = 0".toList }),
      (.ofString "src/A.java",
        .file { bytes := Text.Utf8.encode "public void run()\x7b\x7d".toList })]

theorem holds_configuration : ConfigFile.Holds configured (Path.join ⟨[]⟩ ConfigFile.name)
    { keying? := some .fileAndName, top? := some 1, format? := some .json } := by
  have hplace : configured.place (Path.join ⟨[]⟩ ConfigFile.name) =
      .ok (.file { bytes := Text.Utf8.encode configuration.toList }) := by
    decide +kernel
  have hdecode : Text.Utf8.decode? (Text.Utf8.encode configuration.toList) =
      some configuration.toList := by
    decide +kernel
  have hparse : Config.parse? configuration.toList =
      some { keying? := some .fileAndName, top? := some 1, format? := some .json } := by
    decide +kernel
  exact ⟨_, _, hplace, hdecode, hparse, by decide⟩

theorem outcomes_of_configured :
    let accepted := outcome configured ⟨[]⟩ 0 ["src", "--top", "2"]
    let refused := outcome configured ⟨[]⟩ 0 ["src", "--config", "rowless.toml"]
    let unlisted := outcome configured ⟨[]⟩ 0 ["src"]
      { listing? := fun _ => some (.other "Permission denied (os error 13)") }
    accepted.exitCode = 0 ∧
      (∃ survey,
        Survey.ofDirectory configured .leading .fileAndName (.ofString "src") = .ok survey ∧
        accepted.output = (survey.registry.report 2).receiptLine survey.summary
          { root := "src", declarations := .leading, keying := .fileAndName, top := 2 } 0) ∧
      (refused.exitCode = 1 ∧ refused.output = "") ∧
      unlisted.exitCode = 1 ∧ unlisted.output = "" := by
  have hread : CommandLine.read ["src", "--top", "2"] =
      .ok { directory? := some (.ofString "src"), preferences := { top? := some 2 } } := by
    decide +kernel
  have hread' : CommandLine.read ["src", "--config", "rowless.toml"] =
      .ok { directory? := some (.ofString "src"), config? := some (.ofString "rowless.toml") } := by
    decide +kernel
  have hread'' : CommandLine.read ["src"] = .ok { directory? := some (.ofString "src") } := by
    decide +kernel
  have hloads := ConfigFile.Loads.present holds_configuration
  have hd : configured.isDirectory (.ofString "src") = true := by decide +kernel
  have hspare := Faults.spare_default (.ofString "src")
  obtain ⟨hsuccess, hprinted, -⟩ := outcome_decided configured ⟨[]⟩ 0 {} hread
  obtain ⟨survey, hsurvey, -, hreceipt⟩ := hprinted _ _ hloads rfl hd hspare
  obtain ⟨-, -, hrefused⟩ := outcome_decided configured ⟨[]⟩ 0 {} hread'
  obtain ⟨hlisted, -, hunlisted⟩ := outcome_decided configured ⟨[]⟩ 0
    { listing? := fun _ => some (.other "Permission denied (os error 13)") } hread''
  have hfault : ¬ Outcome.exitCode _ = 0 := hlisted.not.mpr fun ⟨_, _, _, _, hspare⟩ =>
    Option.some_ne_none _ hspare.listing
  obtain ⟨hcode, hsilent, -⟩ := hrefused (by decide +kernel)
  obtain ⟨hcode', hsilent', -⟩ := hunlisted hfault
  refine ⟨hsuccess.mpr ⟨⟨_, hloads⟩, _, rfl, hd, hspare⟩, ⟨survey, hsurvey, ?_⟩,
    ⟨hcode, hsilent rfl⟩, hcode', hsilent' rfl⟩
  exact hreceipt rfl

end Run

end MethodSurvey
