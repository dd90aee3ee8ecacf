import MethodSurvey.Proofs.Run.Arguments
import MethodSurvey.Proofs.Run.Outcome
import MethodSurvey.Proofs.Survey.Reports

/-! The length of the ranking on its way to the report. Neither the command line nor a
configuration that loads asks for no rows, so only an empty registry has none to show. -/

namespace MethodSurvey

theorem Registry.isEmpty_iff (r : Registry) : r.isEmpty = true ↔ r.size = 0 := by
  simp [isEmpty, size]

theorem Registry.hasMethods_report {r : Registry} {length : Nat} (h : 0 < length) :
    (r.report length).hasMethods = !r.isEmpty := by
  rw [Bool.eq_iff_iff, hasMethods_report_iff, Bool.not_eq_true', ← Bool.not_eq_true, isEmpty_iff]
  omega

namespace Report

theorem text_of_no_methods {r : Report} (h : r.hasMethods = false) :
    ∃ closing, r.text = "\nNo methods were found in the directory.\n" ++ closing := by
  rw [text, h]
  exact ⟨_, rfl⟩

theorem noMethods_prefix_text_iff (r : Report) :
    "\nNo methods were found in the directory.\n".toList <+: r.text.toList ↔
      r.hasMethods = false := by
  cases h : r.hasMethods with
  | false =>
    obtain ⟨closing, htext⟩ := text_of_no_methods h
    rw [htext, String.toList_append]
    exact iff_of_true (List.prefix_append _ _) rfl
  | true =>
    refine iff_of_false ?_ Bool.true_eq_false.mp
    rw [text, h]
    simp [heading]

end Report

theorem Settings.top_resolve (commandLine configuration : Preferences) :
    (resolve commandLine configuration).top =
      ((commandLine.top? <|> configuration.top?).getD Settings.default.top) := rfl

theorem Settings.top_resolve_pos {commandLine configuration : Preferences}
    (h : commandLine.top? ≠ some 0) (h' : configuration.top? ≠ some 0) :
    1 ≤ (resolve commandLine configuration).top := by
  rw [top_resolve]
  cases hc : commandLine.top? with
  | some n =>
    rw [hc, ne_eq, Option.some.injEq] at h
    exact Nat.one_le_iff_ne_zero.mpr h
  | none =>
    cases hf : configuration.top? with
    | some n =>
      rw [hf, ne_eq, Option.some.injEq] at h'
      exact Nat.one_le_iff_ne_zero.mpr h'
    | none => decide

theorem ConfigFile.Loads.top?_ne_zero {t : Tree} {directory : Path} {named? : Option Path}
    {found : Option Preferences} (h : Loads t directory named? found) :
    (found.getD {}).top? ≠ some 0 := by
  cases h with
  | named hp | present hp =>
    obtain ⟨bytes, text, -, -, -, htop⟩ := hp
    exact htop
  | absent => simp

namespace Run

variable {t : Tree} {faults : Faults} {title : Path} {timestamp : Nat}

theorem exists_perform_of_report? {arguments : List CommandLine.Argument} {printed : String}
    (h : (outcome t title timestamp arguments faults).report? = some printed) :
    ∃ a, CommandLine.read arguments = .ok a ∧
      perform t faults title timestamp a = .ok printed := by
  cases hread : CommandLine.read arguments with
  | error reason => simp [outcome, hread, Outcome.report?] at h
  | ok a =>
    cases hperform : perform t faults title timestamp a with
    | error failure => simp [outcome_of_error hread hperform, Outcome.report?] at h
    | ok output =>
      rw [outcome_of_ok hread hperform, report?_write] at h
      cases h
      exact ⟨a, rfl, hperform⟩

/-- A run that gets as far as printing has settings with a ranking of at least one row,
wherever its length is from, and prints a survey of its directory under them. Its text then
says that there are no methods exactly if the registry is empty, and has a row for each record
else, as far as the length of the ranking goes. -/
theorem printed_ranking_has_rows (t : Tree) (title : Path) (timestamp : Nat) (faults : Faults)
    (arguments : List CommandLine.Argument) {printed : String}
    (h : (outcome t title timestamp arguments faults).report? = some printed) :
    ∃ a found directory survey, CommandLine.read arguments = .ok a ∧
      ConfigFile.Loads t ⟨[]⟩ a.config? found ∧ a.directory? = some directory ∧
      let s := Settings.resolve a.preferences (found.getD {})
      Survey.ofDirectory t s.declarations s.keying directory = .ok survey ∧
      1 ≤ s.top ∧
      let report := survey.registry.report s.top
      (s.format = .text → printed = report.text) ∧
        (s.format = .json → printed = report.receiptLine survey.summary
          { root := directory.display
            declarations := s.declarations
            keying := s.keying
            top := s.top }
          timestamp) ∧
        ("\nNo methods were found in the directory.\n".toList <+: report.text.toList ↔
          survey.registry.isEmpty = true) ∧
        (survey.registry.isEmpty = false → ∃ ranked p,
          ranked = survey.registry.top s.top ∧ ranked.length = min s.top survey.registry.size ∧
          report.percentage? = some p ∧
          report.text =
            "\nTop " ++ toString s.top ++ " most complex methods/functions in the directory:\n" ++
            String.join (ranked.map fun method =>
              "Method: " ++ method.name ++ ", File: " ++ method.file ++
                ", Complexity: " ++ toString method.complexity ++ "\n") ++
            ("\nPercentage of methods not adhering to naming convention: " ++
              String.ofList (Percentage.text p) ++ "%\n")) := by
  obtain ⟨a, hread, hperform⟩ := exists_perform_of_report? h
  obtain ⟨-, s, directory, survey, hs, hdirectory, -, hsurvey, hprinted⟩ :=
    perform_eq_ok_iff.mp hperform
  obtain ⟨found, hloads, rfl⟩ := settings_eq_ok_iff.mp hs
  have htop : 1 ≤ (Settings.resolve a.preferences (found.getD {})).top :=
    Settings.top_resolve_pos (CommandLine.gathered_of_read hread).top?_ne_zero hloads.top?_ne_zero
  refine ⟨a, found, directory, survey, hread, hloads, hdirectory, hsurvey, htop, ?_⟩
  generalize Settings.resolve a.preferences (found.getD {}) = s at *
  have hmethods : (survey.registry.report s.top).hasMethods = !survey.registry.isEmpty :=
    Registry.hasMethods_report htop
  refine ⟨fun hformat => ?_, fun hformat => ?_, ?_, fun hempty => ?_⟩
  · rw [hprinted, output, hformat]
  · rw [hprinted, output, hformat]
  · rw [Report.noMethods_prefix_text_iff, hmethods, Bool.not_eq_false']
  · rw [hempty, Bool.not_false] at hmethods
    obtain ⟨files, -, rfl⟩ := Survey.ofDirectory_eq_ok_iff.mp hsurvey
    obtain ⟨p, hp⟩ := Survey.exists_percentage_of_hasMethods t s.declarations hmethods
    exact ⟨_, p, rfl, Registry.length_top _ s.top, hp, Report.text_of_hasMethods hmethods hp⟩

/-- The configuration supplies the length, and the command line the format. -/
theorem printed_ranking_of_configured :
    ∃ survey, Survey.ofDirectory configured .leading .fileAndName (.ofString "src") = .ok survey ∧
      survey.registry.isEmpty = false ∧
      outcome configured ⟨[]⟩ 0 ["src", "--format=text"] = .printed
        ("\nTop 1 most complex methods/functions in the directory:\n" ++
          "Method: run, File: A.java, Complexity: 0\n" ++
          "\nPercentage of methods not adhering to naming convention: 0%\n") := by
  have hread : CommandLine.read ["src", "--format=text"] =
      .ok { directory? := some (.ofString "src"), preferences := { format? := some .text } } := by
    decide +kernel
  have hfiles : configured.sourceFiles (.ofString "src") = .ok [.ofString "src/A.java"] := by
    decide +kernel
  have hsurvey : Survey.ofDirectory configured .leading .fileAndName (.ofString "src") =
      .ok (.ofFiles configured .leading { keying := .fileAndName } [.ofString "src/A.java"]) :=
    Survey.ofDirectory_eq_ok_iff.mpr ⟨_, hfiles, rfl⟩
  have hrecords : (Survey.ofFiles configured .leading { keying := .fileAndName }
      [.ofString "src/A.java"]).registry.records.toList = [⟨"run", "A.java", 0⟩] := by
    rw [Survey.registry_ofFiles, Registry.records_recordAll]
    decide +kernel
  have htotals : (Survey.ofFiles configured .leading { keying := .fileAndName }
      [.ofString "src/A.java"]).registry.totals = { declarations := 1 } := by
    rw [Survey.totals_ofFiles]
    decide +kernel
  generalize Survey.ofFiles configured .leading { keying := .fileAndName }
    [.ofString "src/A.java"] = surveyed at *
  have hrun : outcome configured ⟨[]⟩ 0 ["src", "--format=text"] = .printed _ :=
    outcome_of_spare hread (.present holds_configuration) rfl (Faults.spare_default _) hsurvey
  obtain ⟨a, found, directory, survey, hread', hloads, hdirectory, hsurvey', -, htext, -, -, hrows⟩ :=
    printed_ranking_has_rows configured ⟨[]⟩ 0 {} _ (congrArg Outcome.report? hrun)
  obtain rfl := Except.ok.inj (hread.symm.trans hread')
  obtain rfl := hloads.unique (.present holds_configuration)
  obtain rfl := Option.some.inj hdirectory
  obtain rfl := Except.ok.inj (hsurvey.symm.trans hsurvey')
  have hempty : surveyed.registry.isEmpty = false := by
    rw [Registry.isEmpty, Array.isEmpty_eq_false_iff, ne_eq, ← Array.toList_eq_nil_iff, hrecords]
    exact List.cons_ne_nil _ _
  have htop : surveyed.registry.top 1 = [⟨"run", "A.java", 0⟩] := by
    rw [Registry.top, Registry.ranking, hrecords]
    decide +kernel
  obtain ⟨ranked, p, hranked, -, hp, hprinted⟩ := hrows hempty
  have hpercentage : Percentage.text p = ['0'] :=
    Registry.text_percentage hp (htotals ▸ by decide +kernel)
  refine ⟨surveyed, hsurvey, hempty, ?_⟩
  rw [hrun, htext rfl, hprinted, hranked.trans htop, hpercentage]
  decide +kernel

end Run

end MethodSurvey
