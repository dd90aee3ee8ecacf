import MethodSurvey.Proofs.Survey.Files
import MethodSurvey.Proofs.Text.Pieces

/-! Files that fail. Each file of a survey is counted once, as scanned or as failed, and one of
which no line can be read leaves no trace in the registry. -/

namespace MethodSurvey

variable {t : Tree} {style : DeclarationStyle} {p : Path}

/-- No line of the file can be read: no language is known by its name, it cannot be opened, or a
fault comes before its first line has ended. -/
inductive Tree.FailsAtOnce (t : Tree) (p : Path) : ScanError → Prop
  | unsupported : p.language? = none → FailsAtOnce t p (.unsupported p)
  | unopened {fault : Fault} : p.language?.isSome = true → t.openFile p = .error fault →
      FailsAtOnce t p (.unreadable p fault)
  | unread {stream : Stream} {fault : Fault} : p.language?.isSome = true →
      t.openFile p = .ok stream → stream.fault = some fault → 10 ∉ stream.bytes →
      FailsAtOnce t p (.unreadable p fault)

theorem Source.scanStream_of_unended (profile : Profile) (file : String) {stream : Stream}
    {fault : Fault} (hf : stream.fault = some fault) (hb : 10 ∉ stream.bytes) :
    scanStream profile file stream = ⟨[], .error fault⟩ := by
  have hlines : linesOfStream stream = [] := by
    simp [linesOfStream, hf, Text.completePieces_of_not_mem hb]
  simp [scanStream, hlines, Scanner.scan, hf]

theorem Tree.FailsAtOnce.scanFile_eq {e : ScanError} (h : t.FailsAtOnce p e) :
    t.scanFile style p = ⟨[], .error e⟩ := by
  cases h with
  | unsupported hl => simp [scanFile, hl]
  | unopened hl ho =>
    obtain ⟨language, hl⟩ := Option.isSome_iff_exists.mp hl
    simp [scanFile, hl, ho]
  | unread hl ho hf hb =>
    obtain ⟨language, hl⟩ := Option.isSome_iff_exists.mp hl
    simp [scanFile, hl, ho, Source.scanStream_of_unended _ _ hf hb, Except.mapError]

theorem Tree.warning?_eq_some_iff {message : String} :
    t.warning? style p = some message ↔
      ∃ e, (t.scanFile style p).outcome = .error e ∧ e.message = message := by
  rw [warning?]
  cases (t.scanFile style p).outcome <;> simp

namespace Survey

theorem scanned_add_failed (registry : Registry) (files : List Path) :
    (ofFiles t style registry files).summary.scanned +
      (ofFiles t style registry files).summary.failed = files.length := by
  rw [summary_ofFiles, List.length_filterMap_eq_countP,
    List.length_eq_countP_add_countP (fun p => (t.warning? style p).isNone) (l := files)]
  congr 1
  apply List.countP_congr
  intro p _
  cases t.warning? style p <;> simp

theorem status_ofFiles_iff (registry : Registry) (files : List Path) :
    (ofFiles t style registry files).summary.status = .incomplete ↔
      ∃ p ∈ files, ∃ e, (t.scanFile style p).outcome = .error e := by
  have hstatus : (ofFiles t style registry files).summary.status = .incomplete ↔
      files.filterMap (t.warning? style) ≠ [] := by
    rw [summary_ofFiles, Summary.status]
    simp
  rw [hstatus]
  constructor
  · intro hne
    obtain ⟨message, hm⟩ := List.exists_mem_of_ne_nil _ hne
    obtain ⟨p, hp, hw⟩ := List.mem_filterMap.mp hm
    obtain ⟨e, he, -⟩ := Tree.warning?_eq_some_iff.mp hw
    exact ⟨p, hp, e, he⟩
  · rintro ⟨p, hp, e, he⟩
    have hw : t.warning? style p = some e.message := Tree.warning?_eq_some_iff.mpr ⟨e, he, rfl⟩
    exact List.ne_nil_of_mem (List.mem_filterMap.mpr ⟨p, hp, hw⟩)

/-- A file that reports nothing can be left out. -/
theorem reported_filter_ne (files : List Path) (h : (t.scanFile style p).events = []) :
    reported t style (files.filter (· ≠ p)) = reported t style files := by
  induction files with
  | nil => rfl
  | cons q files ih =>
    by_cases hq : q = p
    · rw [List.filter_cons_of_neg (by simp [hq]), ih, reported_cons, hq, h, List.nil_append]
    · rw [List.filter_cons_of_pos (by simp [hq]), reported_cons, reported_cons, ih]

theorem scanned_filter_ne (registry : Registry) (files : List Path) {e : ScanError}
    (h : (t.scanFile style p).outcome = .error e) :
    (ofFiles t style registry (files.filter (· ≠ p))).summary.scanned =
      (ofFiles t style registry files).summary.scanned := by
  rw [summary_ofFiles, summary_ofFiles, List.countP_filter]
  apply List.countP_congr
  intro q hq
  have hw : t.warning? style p = some e.message := Tree.warning?_eq_some_iff.mpr ⟨e, h, rfl⟩
  by_cases hqp : q = p
  · simp [hqp, hw]
  · simp [hqp]

/-- Each file of a survey counts as scanned or as failed, and those that failed give one warning
each, in their order. A file of which no line can be read changes nothing else: without it the
registry is the same, and the same number of files is scanned. -/
theorem ofFiles_isolates_failures (t : Tree) (style : DeclarationStyle) (registry : Registry)
    (files : List Path) :
    let survey := ofFiles t style registry files
    survey.summary.scanned + survey.summary.failed = files.length ∧
      survey.summary.warnings.length = survey.summary.failed ∧
      survey.summary.warnings = files.filterMap (t.warning? style) ∧
      (survey.summary.status = .incomplete ↔
        ∃ p ∈ files, ∃ e, (t.scanFile style p).outcome = .error e) ∧
      ∀ p e, t.FailsAtOnce p e → (t.scanFile style p).outcome = .error e ∧
        (ofFiles t style registry (files.filter (· ≠ p))).registry = survey.registry ∧
        (ofFiles t style registry (files.filter (· ≠ p))).summary.scanned =
          survey.summary.scanned := by
  intro survey
  have hsummary := summary_ofFiles t style registry files
  refine ⟨scanned_add_failed registry files, ?_, ?_, status_ofFiles_iff registry files, ?_⟩
  · simp only [survey, hsummary]
  · simp only [survey, hsummary]
  · intro p e h
    have hfile : t.scanFile style p = ⟨[], .error e⟩ := h.scanFile_eq
    have hevents : (t.scanFile style p).events = [] := by rw [hfile]
    have herror : (t.scanFile style p).outcome = .error e := by rw [hfile]
    refine ⟨herror, ?_, scanned_filter_ne registry files herror⟩
    rw [registry_ofFiles, reported_filter_ne files hevents, ← registry_ofFiles]

/-- A name without a language, a directory, a missing file and one that breaks off midway. -/
theorem ofFiles_isolates_unread_files :
    let tree : Tree :=
      { entries := ([Text.Utf8.encode "d.java".toList], .directory) :: brokenOff.entries }
    let files := ["d.java", "A.java", "c.txt", "gone.kt", "b.kt", "d.java"].map Path.ofString
    let registry : Registry := { keying := .name }
    let survey := ofFiles tree .leading registry files
    let directory := Path.ofString "d.java"
    tree.FailsAtOnce (Path.ofString "c.txt") (.unsupported (Path.ofString "c.txt")) ∧
      tree.FailsAtOnce (Path.ofString "gone.kt") (.unreadable (Path.ofString "gone.kt") .missing) ∧
      tree.FailsAtOnce directory (.unreadable directory .isADirectory) ∧
      survey.summary.scanned + survey.summary.failed = 6 ∧
      survey.summary.warnings =
        ["Failed to read d.java: Is a directory (os error 21)",
          "Not a Java or Kotlin source file: c.txt",
          "Failed to read gone.kt: No such file or directory (os error 2)",
          "Failed to read b.kt: disk went away",
          "Failed to read d.java: Is a directory (os error 21)"] ∧
      (ofFiles tree .leading registry (files.filter (· ≠ directory))).registry =
        survey.registry := by
  intro tree files registry survey directory
  obtain ⟨hcount, -, hwarnings, -, hisolated⟩ :=
    ofFiles_isolates_failures tree .leading registry files
  have hopened : tree.openFile directory = .ok { bytes := [], fault := some .isADirectory } := by
    decide +kernel
  have hunread : tree.FailsAtOnce directory (.unreadable directory .isADirectory) :=
    .unread (by decide +kernel) hopened rfl List.not_mem_nil
  obtain ⟨-, hregistry, -⟩ := hisolated directory _ hunread
  refine ⟨.unsupported (by decide +kernel), .unopened (by decide +kernel) (by decide +kernel),
    hunread, hcount, ?_, hregistry⟩
  rw [hwarnings]
  decide +kernel

end Survey

end MethodSurvey
