import MethodSurvey.Proofs.Registry.Commutation
import MethodSurvey.Survey

/-! A survey of files is decided by what each file gives on its own: the registry by the
events of the scans one after another, the summary by their outcomes. -/

namespace MethodSurvey

variable (t : Tree) (style : DeclarationStyle)

/-- The warning that a file gives, if it cannot be scanned to its end. -/
def Tree.warning? (p : Path) : Option String :=
  match (t.scanFile style p).outcome with
  | .ok _ => none
  | .error e => some e.message

namespace Survey

/-- What the scans of some files report, one file after another. -/
def reported (files : List Path) : List Event :=
  files.flatMap fun p => (t.scanFile style p).events

theorem reported_cons (p : Path) (files : List Path) :
    reported t style (p :: files) = (t.scanFile style p).events ++ reported t style files :=
  List.flatMap_cons

theorem summary_addFile (s : Survey) (p : Path) :
    (addFile t style s p).summary =
      { scanned := s.summary.scanned + if (t.warning? style p).isNone then 1 else 0
        failed := s.summary.failed + (t.warning? style p).toList.length
        warnings := s.summary.warnings ++ (t.warning? style p).toList } := by
  cases ho : (t.scanFile style p).outcome <;> simp [addFile, Tree.warning?, ho]

theorem registry_foldl_addFile (s : Survey) (files : List Path) :
    (files.foldl (addFile t style) s).registry =
      s.registry.recordAll (reported t style files) := by
  induction files generalizing s with
  | nil => rfl
  | cons p files ih =>
    rw [List.foldl_cons, ih, reported_cons, Registry.recordAll_append]
    rfl

theorem summary_foldl_addFile (s : Survey) (files : List Path) :
    (files.foldl (addFile t style) s).summary =
      { scanned := s.summary.scanned + files.countP fun p => (t.warning? style p).isNone
        failed := s.summary.failed + (files.filterMap (t.warning? style)).length
        warnings := s.summary.warnings ++ files.filterMap (t.warning? style) } := by
  induction files generalizing s with
  | nil => simp
  | cons p files ih =>
    rw [List.foldl_cons, ih, summary_addFile]
    cases hw : t.warning? style p <;> simp [hw, Nat.add_assoc, Nat.add_comm 1]

theorem registry_ofFiles (registry : Registry) (files : List Path) :
    (ofFiles t style registry files).registry = registry.recordAll (reported t style files) :=
  registry_foldl_addFile t style { registry } files

theorem summary_ofFiles (registry : Registry) (files : List Path) :
    (ofFiles t style registry files).summary =
      { scanned := files.countP fun p => (t.warning? style p).isNone
        failed := (files.filterMap (t.warning? style)).length
        warnings := files.filterMap (t.warning? style) } := by
  have hh := summary_foldl_addFile t style { registry } files
  simp only [Nat.zero_add, List.nil_append] at hh
  exact hh

theorem totals_ofFiles (keying : Keying)
    (files : List Path) :
    (ofFiles t style { keying } files).registry.totals =
      { declarations := ((reported t style files).filterMap Event.conforming?).length
        nonConforming := ((reported t style files).filterMap Event.conforming?).count false } := by
  rw [registry_ofFiles, Registry.totals_recordAll]
  simp only [Nat.zero_add]

/-- A Java file and a Kotlin file that cannot be read to its end. -/
def brokenOff : Tree where
  entries :=
    [([Text.Utf8.encode "A.java".toList],
        .file { bytes := Text.Utf8.encode "public void run() \x7b\n\x7d\n".toList }),
      ([Text.Utf8.encode "b.kt".toList],
        .file
          { bytes := Text.Utf8.encode "fun run() \x7b if (a) b() \x7d\nfun Late() \x7b\n\x7d".toList
            fault := some (.other "disk went away") })]

end Survey

end MethodSurvey
