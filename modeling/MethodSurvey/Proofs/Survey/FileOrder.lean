import MethodSurvey.Proofs.Registry.Ranking
import MethodSurvey.Proofs.Survey.Origin

/-! The order of the files of a survey decides which of several methods with one key is kept
and how methods of equal complexity are ranked, and nothing else. -/

namespace MethodSurvey.Survey

variable (t : Tree) (style : DeclarationStyle) {files files' : List Path}

theorem reported_perm (h : files.Perm files') :
    (reported t style files).Perm (reported t style files') :=
  h.flatMap_right _

theorem totals_ofFiles_perm (keying : Keying) (h : files.Perm files') :
    (ofFiles t style { keying } files).registry.totals =
      (ofFiles t style { keying } files').registry.totals := by
  have hd := (reported_perm t style h).filterMap Event.conforming?
  rw [totals_ofFiles, totals_ofFiles, hd.length_eq, hd.count_eq]

theorem summary_ofFiles_perm (keying : Keying) (h : files.Perm files') :
    let summary := (ofFiles t style { keying } files).summary
    let summary' := (ofFiles t style { keying } files').summary
    summary.scanned = summary'.scanned ∧ summary.failed = summary'.failed ∧
      summary.warnings.Perm summary'.warnings := by
  have hw := h.filterMap (t.warning? style)
  rw [summary_ofFiles, summary_ofFiles]
  exact ⟨h.countP_eq _, hw.length_eq, hw⟩

theorem mem_slots_ofFiles_perm (keying : Keying) (h : files.Perm files') (key : String) :
    key ∈ (ofFiles t style { keying } files).registry.slots ↔
      key ∈ (ofFiles t style { keying } files').registry.slots := by
  have hm := (reported_perm t style h).filterMap Event.record?
  rw [registry_ofFiles, registry_ofFiles, Registry.mem_slots_recordAll_iff,
    Registry.mem_slots_recordAll_iff]
  exact exists_congr fun m => and_congr_left fun _ => hm.mem_iff

/-- With files in the keys, the records of a survey are those of its files one after another. -/
theorem records_ofFiles (hnd : (files.map Path.displayName).Nodup)
    (hfree : ∀ p ∈ files, Keying.SeparatorFree p.displayName) :
    (ofFiles t style { keying := .fileAndName } files).registry.records.toList =
      files.flatMap fun p =>
        (Registry.recordAll { keying := .fileAndName } (t.scanFile style p).events).records.toList := by
  rw [registry_ofFiles]
  exact Registry.records_flatMap _ (keysApart_of_nodup hnd hfree)

theorem records_ofFiles_perm (h : files.Perm files') (hnd : (files.map Path.displayName).Nodup)
    (hfree : ∀ p ∈ files, Keying.SeparatorFree p.displayName) :
    (ofFiles t style { keying := .fileAndName } files).registry.records.toList.Perm
      (ofFiles t style { keying := .fileAndName } files').registry.records.toList := by
  have hnd' : (files'.map Path.displayName).Nodup := (h.map _).nodup_iff.mp hnd
  have hfree' : ∀ p ∈ files', Keying.SeparatorFree p.displayName :=
    fun p hp => hfree p (h.mem_iff.mpr hp)
  rw [records_ofFiles t style hnd hfree, records_ofFiles t style hnd' hfree']
  exact h.flatMap_right _

/-- Files in another order give the same totals, the same percentage, the same counts of
files, the same warnings up to their order and the same keys. Where keys hold the file, and
the files have different display names without a separator, they also give the same records
up to their order and rankings with the same complexities. -/
theorem survey_of_files_perm (t : Tree) (style : DeclarationStyle) (keying : Keying)
    {files files' : List Path} (h : files.Perm files') :
    let survey := ofFiles t style { keying } files
    let survey' := ofFiles t style { keying } files'
    survey.registry.totals = survey'.registry.totals ∧
      survey.registry.percentage? = survey'.registry.percentage? ∧
      survey.summary.scanned = survey'.summary.scanned ∧
      survey.summary.failed = survey'.summary.failed ∧
      survey.summary.warnings.Perm survey'.summary.warnings ∧
      (∀ key, key ∈ survey.registry.slots ↔ key ∈ survey'.registry.slots) ∧
      (keying = .fileAndName → (files.map Path.displayName).Nodup →
        (∀ p ∈ files, Keying.SeparatorFree p.displayName) →
          survey.registry.records.toList.Perm survey'.registry.records.toList ∧
            ∀ k, (survey.registry.top k).map MethodRecord.complexity =
              (survey'.registry.top k).map MethodRecord.complexity) := by
  intro survey survey'
  have htotals : survey.registry.totals = survey'.registry.totals :=
    totals_ofFiles_perm t style keying h
  have hpercentage : survey.registry.percentage? = survey'.registry.percentage? := by
    rw [Registry.percentage?, Registry.percentage?, htotals]
  obtain ⟨hscanned, hfailed, hwarnings⟩ := summary_ofFiles_perm t style keying h
  refine ⟨htotals, hpercentage, hscanned, hfailed, hwarnings, mem_slots_ofFiles_perm t style keying h,
    ?_⟩
  rintro rfl hnd hfree
  have hrecords := records_ofFiles_perm t style h hnd hfree
  refine ⟨hrecords, fun k => ?_⟩
  rw [Registry.top, Registry.top, List.map_take, List.map_take,
    Registry.map_complexity_ranking_of_perm hrecords]

/-- Two methods of one name, in files of which one breaks off and between which stands a file
that is not scanned at all. -/
theorem survey_of_broken_off_file_reversed :
    let files := ["A.java", "c.txt", "b.kt"].map Path.ofString
    let survey := ofFiles brokenOff .leading { keying := .fileAndName } files
    let survey' := ofFiles brokenOff .leading { keying := .fileAndName } files.reverse
    (reported brokenOff .leading files).filterMap Event.record? =
        [⟨"run", "A.java", 0⟩, ⟨"run", "b.kt", 1⟩] ∧
      survey'.registry.records.toList.Perm survey.registry.records.toList ∧
      (survey'.registry.top 1).map MethodRecord.complexity =
        (survey.registry.top 1).map MethodRecord.complexity ∧
      survey'.registry.totals = survey.registry.totals ∧
      survey'.summary.warnings.Perm survey.summary.warnings := by
  intro files
  obtain ⟨htotals, -, -, -, hwarnings, -, hfile⟩ :=
    survey_of_files_perm brokenOff .leading .fileAndName (List.reverse_perm files)
  obtain ⟨hrecords, htop⟩ := hfile rfl (by decide +kernel) (by decide +kernel)
  exact ⟨by decide +kernel, hrecords, htop 1, htotals, hwarnings⟩

end MethodSurvey.Survey
