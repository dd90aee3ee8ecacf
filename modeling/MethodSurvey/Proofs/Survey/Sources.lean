import MethodSurvey.Proofs.Files.Sources
import MethodSurvey.Settings
import MethodSurvey.Survey

/-! The survey of a directory depends on its sources alone: nothing else in the tree, and no
order of its entries, has any influence. -/

namespace MethodSurvey.Survey

variable {t t' : Tree} {style : DeclarationStyle}

theorem addFile_congr {p : Path} (h : t.scanFile style p = t'.scanFile style p) (s : Survey) :
    addFile t style s p = addFile t' style s p := by
  rw [addFile, addFile, h]

theorem ofFiles_congr (registry : Registry) {files : List Path}
    (h : ∀ p ∈ files, t.scanFile style p = t'.scanFile style p) :
    ofFiles t style registry files = ofFiles t' style registry files :=
  List.foldl_ext _ _ _ fun s p hp => addFile_congr (h p hp) s

theorem ofDirectory_eq_of_sources (ht : t.WellFormed) (ht' : t'.WellFormed)
    (style : DeclarationStyle) (keying : Keying) {directory : Path}
    (hd : t.isDirectory directory = true) (hd' : t'.isDirectory directory = true)
    (h : ∀ source, source ∈ t.sources directory ↔ source ∈ t'.sources directory) :
    ∃ survey, ofDirectory t style keying directory = .ok survey ∧
      ofDirectory t' style keying directory = .ok survey := by
  obtain ⟨files, hfiles⟩ := Tree.exists_sourceFiles hd
  have hfiles' : t'.sourceFiles directory = .ok files :=
    (Tree.sourceFiles_eq_of_sources ht ht' hd hd' h).symm.trans hfiles
  have hscan : ∀ p ∈ files, t.scanFile style p = t'.scanFile style p := fun p hp =>
    Tree.scanFile_eq_of_place style (Tree.place_eq_of_mem_sourceFiles hd hd' h hfiles hp)
  refine ⟨ofFiles t style { keying } files, ?_, ?_⟩
  · rw [ofDirectory, hfiles]
    rfl
  · rw [ofDirectory, hfiles', ofFiles_congr { keying } hscan]
    rfl

/-- What a run with these settings finds out about a directory. -/
def findings (t : Tree) (settings : Settings) (directory : Path) :
    Except NotADirectory (Report × Summary) :=
  (ofDirectory t settings.declarations settings.keying directory).map fun survey =>
    (survey.registry.report settings.top, survey.summary)

/-- A directory that has the same sources in two trees is reported on in both, with one report
and one summary. -/
theorem findings_eq_of_sources (ht : t.WellFormed) (ht' : t'.WellFormed) (settings : Settings)
    {directory : Path} (hd : t.isDirectory directory = true)
    (hd' : t'.isDirectory directory = true)
    (h : ∀ source, source ∈ t.sources directory ↔ source ∈ t'.sources directory) :
    ∃ report summary, findings t settings directory = .ok (report, summary) ∧
      findings t' settings directory = .ok (report, summary) := by
  obtain ⟨survey, hs, hs'⟩ := ofDirectory_eq_of_sources ht ht' settings.declarations
    settings.keying hd hd' h
  refine ⟨survey.registry.report settings.top, survey.summary, ?_, ?_⟩
  · rw [findings, hs]
    rfl
  · rw [findings, hs']
    rfl

/-- Two source files, the second one behind a link, with an ignore file and a subdirectory that
is named like a source file. -/
def withLink : Tree :=
  Tree.ofEntries
    [(.ofString "src/A.java",
        .file { bytes := Text.Utf8.encode "public void run()\x7b\x7d".toList }),
      (.ofString "src/.ignore", .file { bytes := Text.Utf8.encode "*.java".toList }),
      (.ofString "src/C.java/D.java",
        .file { bytes := Text.Utf8.encode "public void late()\x7b\x7d".toList }),
      (.ofString "src/b.kt", .link (.ofString "../lib/b")),
      (.ofString "lib/b", .file { bytes := Text.Utf8.encode "fun run()\x7bif\x7d".toList })]

/-- The same source files and notes, put there in another order. -/
def withNotes : Tree :=
  Tree.ofEntries
    [(.ofString "src/b.kt", .file { bytes := Text.Utf8.encode "fun run()\x7bif\x7d".toList }),
      (.ofString "src/notes.md", .file { bytes := Text.Utf8.encode "fun no()\x7b\x7d".toList }),
      (.ofString "src/A.java",
        .file { bytes := Text.Utf8.encode "public void run()\x7b\x7d".toList })]

theorem findings_withLink_eq_withNotes :
    withLink ≠ withNotes ∧
      ∃ report summary,
        findings withLink Settings.default (.ofString "src") = .ok (report, summary) ∧
        findings withNotes Settings.default (.ofString "src") = .ok (report, summary) := by
  have hsources :
      (withLink.sources (.ofString "src")).Perm (withNotes.sources (.ofString "src")) := by
    decide +kernel
  refine ⟨by decide +kernel, ?_⟩
  exact findings_eq_of_sources (Tree.wellFormed_ofEntries _) (Tree.wellFormed_ofEntries _)
    Settings.default (by decide +kernel) (by decide +kernel) fun _ => hsources.mem_iff

end MethodSurvey.Survey
