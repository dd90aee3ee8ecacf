import MethodSurvey.Proofs.Registry.Ranking
import MethodSurvey.Proofs.Registry.Survivors
import MethodSurvey.Proofs.Scan.Balance
import MethodSurvey.Proofs.Survey.Files
import MethodSurvey.Report.Text

/-! The figures of a report fit together: records are counted by the methods that close and
totals by declarations, yet no survey has a ranking without a percentage. -/

namespace MethodSurvey

/-- Also a scan that breaks off has met the declarations of its methods. -/
theorem Tree.length_methods_scanFile_le (t : Tree) (style : DeclarationStyle) (p : Path) :
    (t.scanFile style p).methods.length ≤ (t.scanFile style p).declarations.length := by
  rw [FileScan.methods, FileScan.declarations, Tree.scanFile]
  split
  · exact Nat.le_refl 0
  · split
    · exact Nat.le_refl 0
    · exact Scanner.length_methods_scan_le _ _ _

theorem Totals.percentage?_eq_none_iff (totals : Totals) :
    totals.percentage? = none ↔ totals.declarations = 0 := by
  rw [percentage?]
  split
  · simp [*]
  · simp [*]

theorem Registry.hasMethods_report_iff (r : Registry) (length : Nat) :
    (r.report length).hasMethods = true ↔ 0 < r.size ∧ 0 < length := by
  have hempty : (r.report length).hasMethods = true ↔ (r.top length).length ≠ 0 := by
    simp [Report.hasMethods, report]
  rw [hempty, length_top]
  omega

theorem Registry.text_percentage {r : Registry} {length : Nat} {p : Binary64} {s : List Char}
    (hp : (r.report length).percentage? = some p)
    (hs : r.totals.percentage?.map Percentage.text = some s) : Percentage.text p = s := by
  rw [show r.totals.percentage? = some p from hp] at hs
  exact Option.some.inj hs

theorem Report.text_of_hasMethods {r : Report} {p : Binary64} (h : r.hasMethods = true)
    (hp : r.percentage? = some p) :
    r.text = "\nTop " ++ toString r.length ++ " most complex methods/functions in the directory:\n" ++
      String.join (r.top.map fun method =>
        "Method: " ++ method.name ++ ", File: " ++ method.file ++
          ", Complexity: " ++ toString method.complexity ++ "\n") ++
      ("\nPercentage of methods not adhering to naming convention: " ++
        String.ofList (Percentage.text p) ++ "%\n") := by
  rw [text, h, hp]
  rfl

namespace Survey

variable (t : Tree) (style : DeclarationStyle)

theorem length_methods_reported_le (files : List Path) :
    ((reported t style files).filterMap Event.record?).length ≤
      ((reported t style files).filterMap Event.conforming?).length := by
  induction files with
  | nil => exact Nat.le_refl 0
  | cons p files ih =>
    have hfile := t.length_methods_scanFile_le style p
    rw [reported_cons, List.filterMap_append, List.filterMap_append, List.length_append,
      List.length_append]
    exact Nat.add_le_add hfile ih

theorem size_ofFiles_le (keying : Keying) (files : List Path) :
    (ofFiles t style { keying } files).registry.size ≤
      (ofFiles t style { keying } files).registry.totals.declarations := by
  rw [totals_ofFiles, registry_ofFiles]
  exact (Registry.size_recordAll_le _ keying).trans (length_methods_reported_le t style files)

theorem nonConforming_ofFiles_le (keying : Keying) (files : List Path) :
    (ofFiles t style { keying } files).registry.totals.nonConforming ≤
      (ofFiles t style { keying } files).registry.totals.declarations := by
  rw [totals_ofFiles]
  exact List.count_le_length

theorem exists_percentage_of_hasMethods {keying : Keying} {files : List Path} {length : Nat}
    (h : ((ofFiles t style { keying } files).registry.report length).hasMethods = true) :
    ∃ p, ((ofFiles t style { keying } files).registry.report length).percentage? = some p := by
  apply Option.ne_none_iff_exists'.mp
  intro hnone
  have hdeclared := (Totals.percentage?_eq_none_iff _).mp hnone
  have hrecorded := size_ofFiles_le t style keying files
  have hpositive := ((Registry.hasMethods_report_iff _ _).mp h).1
  omega

/-- In the report on any files there are at most as many records as declarations, and at most
as many declarations that do not conform. The percentage is missing exactly where nothing was
declared, and there is a ranking exactly where there are records and its length is not zero.
So a ranking never comes without a percentage, and in the text the line with the percentage
stands after it. -/
theorem report_of_files_coherent (t : Tree) (style : DeclarationStyle) (keying : Keying)
    (files : List Path) (length : Nat) :
    let report := (ofFiles t style { keying } files).registry.report length
    report.recorded ≤ report.totals.declarations ∧
      report.totals.nonConforming ≤ report.totals.declarations ∧
      (report.percentage? = none ↔ report.totals.declarations = 0) ∧
      (report.hasMethods = true ↔ 0 < report.recorded ∧ 0 < length) ∧
      (report.hasMethods = true → ∃ p, report.percentage? = some p ∧
        report.text =
          "\nTop " ++ toString length ++ " most complex methods/functions in the directory:\n" ++
          String.join (report.top.map fun method =>
            "Method: " ++ method.name ++ ", File: " ++ method.file ++
              ", Complexity: " ++ toString method.complexity ++ "\n") ++
          ("\nPercentage of methods not adhering to naming convention: " ++
            String.ofList (Percentage.text p) ++ "%\n")) := by
  intro report
  refine ⟨size_ofFiles_le t style keying files, nonConforming_ofFiles_le t style keying files,
    report.totals.percentage?_eq_none_iff, Registry.hasMethods_report_iff _ length, fun h => ?_⟩
  obtain ⟨p, hp⟩ := exists_percentage_of_hasMethods t style h
  exact ⟨p, hp, Report.text_of_hasMethods h hp⟩

/-- The last file declares a method that does not conform and is never closed. -/
theorem report_of_broken_off_file_has_percentage :
    let files := ["A.java", "c.txt", "b.kt"].map Path.ofString
    let report := (ofFiles brokenOff .leading { keying := .name } files).registry.report 1
    report.totals = { declarations := 3, nonConforming := 1 } ∧ report.hasMethods = true ∧
      report.text =
        "\nTop 1 most complex methods/functions in the directory:\n" ++
          "Method: run, File: b.kt, Complexity: 1\n" ++
          "\nPercentage of methods not adhering to naming convention: 33.33%\n" := by
  intro files
  have hcoherent := report_of_files_coherent brokenOff .leading .name files 1
  have htotals : (ofFiles brokenOff .leading { keying := .name } files).registry.totals =
      { declarations := 3, nonConforming := 1 } := by
    rw [totals_ofFiles]
    decide +kernel
  have hrecords : (ofFiles brokenOff .leading { keying := .name } files).registry.records.toList =
      [⟨"run", "b.kt", 1⟩] := by
    rw [registry_ofFiles, Registry.records_recordAll]
    decide +kernel
  generalize (ofFiles brokenOff .leading { keying := .name } files).registry = r at *
  obtain ⟨-, -, -, hmethods, htext⟩ := hcoherent
  have hranked : (r.report 1).hasMethods = true :=
    hmethods.mpr ⟨Registry.size_pos_of_mem (hrecords ▸ List.mem_cons_self), Nat.one_pos⟩
  obtain ⟨p, hp, htext⟩ := htext hranked
  have htop : r.top 1 = [⟨"run", "b.kt", 1⟩] := by
    rw [Registry.top, Registry.ranking, hrecords]
    decide +kernel
  have hpercentage : Percentage.text p = "33.33".toList :=
    Registry.text_percentage hp (htotals ▸ by decide +kernel)
  refine ⟨htotals, hranked, htext.trans ?_⟩
  rw [show (r.report 1).top = r.top 1 from rfl, htop, hpercentage]
  decide +kernel

end Survey

end MethodSurvey
