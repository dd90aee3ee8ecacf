import MethodSurvey.Proofs.Registry.Ranking
import MethodSurvey.Proofs.Registry.Survivors
import MethodSurvey.Proofs.Survey.Origin

/-! The same files surveyed under both kinds of keys. Keys without files overwrite more, and
what they leave is left by keys with files too. -/

namespace MethodSurvey.Survey

variable {t : Tree} {style : DeclarationStyle} {files : List Path}

theorem mem_methods_reported_iff {m : MethodRecord} :
    m ∈ (reported t style files).filterMap Event.record? ↔
      ∃ p ∈ files, m ∈ (t.scanFile style p).methods := by
  rw [reported, List.filterMap_flatMap, List.mem_flatMap]
  rfl

theorem refines_reported (hfree : ∀ p ∈ files, Keying.SeparatorFree p.displayName) :
    Registry.Refines .fileAndName .name
      ((reported t style files).filterMap Event.record?) := by
  intro m hm m' hm' hkey
  obtain ⟨p, hp, hm⟩ := mem_methods_reported_iff.mp hm
  obtain ⟨q, hq, hm'⟩ := mem_methods_reported_iff.mp hm'
  exact (displayName_and_name_eq_of_key_eq (hfree p hp) (hfree q hq) hm hm' hkey).2

/-- Files whose display names hold no separator give the same totals, percentage and summary
under both kinds of keys, and records with the same method names. The records under names
alone are also records under files and names, and at each of their ranks the other ranking
has a complexity at least as high. -/
theorem survey_of_coarser_keys (t : Tree) (style : DeclarationStyle) {files : List Path}
    (hfree : ∀ p ∈ files, Keying.SeparatorFree p.displayName) :
    let byName := ofFiles t style { keying := .name } files
    let byFile := ofFiles t style { keying := .fileAndName } files
    byName.registry.totals = byFile.registry.totals ∧
      byName.registry.percentage? = byFile.registry.percentage? ∧
      byName.summary = byFile.summary ∧
      (∀ name, (∃ m ∈ byName.registry.records.toList, m.name = name) ↔
        ∃ m ∈ byFile.registry.records.toList, m.name = name) ∧
      byName.registry.records.toList ⊆ byFile.registry.records.toList ∧
      byName.registry.size ≤ byFile.registry.size ∧
      ∀ i < byName.registry.size, ∃ m m', byName.registry.ranking[i]? = some m ∧
        byFile.registry.ranking[i]? = some m' ∧ m.complexity ≤ m'.complexity := by
  intro byName byFile
  have htotals : byName.registry.totals = byFile.registry.totals :=
    (totals_ofFiles t style .name files).trans (totals_ofFiles t style .fileAndName files).symm
  have hpercentage : byName.registry.percentage? = byFile.registry.percentage? := by
    rw [Registry.percentage?, Registry.percentage?, htotals]
  have hsummary : byName.summary = byFile.summary := by
    rw [summary_ofFiles, summary_ofFiles]
  have hname : Registry.Refines .name .name ((reported t style files).filterMap Event.record?) :=
    fun _ _ _ _ hkey => hkey
  have hfile : Registry.Refines .fileAndName .name
      ((reported t style files).filterMap Event.record?) := refines_reported hfree
  have hsub : byName.registry.records.toList.Subperm byFile.registry.records.toList := by
    rw [registry_ofFiles, registry_ofFiles]
    exact hfile.records_subperm
  have hnames : ∀ name, (∃ m ∈ byName.registry.records.toList, m.name = name) ↔
      ∃ m ∈ byFile.registry.records.toList, m.name = name := by
    intro name
    rw [registry_ofFiles, registry_ofFiles]
    exact (hname.exists_record_iff _ name).trans (hfile.exists_record_iff _ name).symm
  refine ⟨htotals, hpercentage, hsummary, hnames, hsub.subset, ?_, fun i hi => ?_⟩
  · simpa [Registry.size] using hsub.length_le
  · exact Registry.exists_ranking_le_of_subperm hsub hi

/-- A method that is overwritten in the second file under its name is kept under its file. -/
theorem survey_of_broken_off_file_under_names :
    let files := ["b.kt", "A.java", "c.txt"].map Path.ofString
    let byName := ofFiles brokenOff .leading { keying := .name } files
    let byFile := ofFiles brokenOff .leading { keying := .fileAndName } files
    ⟨"run", "A.java", 0⟩ ∈ byFile.registry.records.toList ∧
      byName.registry.totals = byFile.registry.totals ∧ byName.summary = byFile.summary ∧
      byName.registry.size ≤ byFile.registry.size ∧
      ∃ m m', byName.registry.ranking[0]? = some m ∧ byFile.registry.ranking[0]? = some m' ∧
        m.complexity ≤ m'.complexity := by
  intro files
  obtain ⟨htotals, -, hsummary, -, hsubset, hsize, hranks⟩ :=
    survey_of_coarser_keys brokenOff .leading
      (show ∀ p ∈ files, Keying.SeparatorFree p.displayName by decide +kernel)
  have hlast : ⟨"run", "A.java", 0⟩ ∈
      (ofFiles brokenOff .leading { keying := .name } files).registry.records.toList := by
    rw [registry_ofFiles]
    apply (Registry.mem_records_recordAll_iff _).mpr
    decide +kernel
  have hkept := hsubset hlast
  have hrank := hranks 0 (Registry.size_pos_of_mem hlast)
  exact ⟨hkept, htotals, hsummary, hsize, hrank⟩

end MethodSurvey.Survey
