import Mathlib.Algebra.Ring.Nat
import MethodSurvey.Proofs.Files.Listing
import MethodSurvey.Proofs.Survey.FileOrder

/-! With files in the keys the methods of different files do not meet: the registry of a
directory holds for each of its files what a scan of that file alone would leave. -/

namespace MethodSurvey.Survey

variable (t : Tree) (style : DeclarationStyle) {files : List Path}

theorem size_ofFiles (hnd : (files.map Path.displayName).Nodup)
    (hfree : ∀ p ∈ files, Keying.SeparatorFree p.displayName) :
    (ofFiles t style { keying := .fileAndName } files).registry.size =
      (files.map fun p =>
        ((t.scanFile style p).methods.map MethodRecord.name).eraseDups.length).sum := by
  have hfile : ∀ p, (Registry.recordAll { keying := .fileAndName }
      (t.scanFile style p).events).records.toList.length =
        ((t.scanFile style p).methods.map MethodRecord.name).eraseDups.length := by
    intro p
    have hlen := congrArg List.length
      (Registry.map_some_records .fileAndName (t.scanFile style p).events)
    rw [List.length_map, List.length_map] at hlen
    exact hlen.trans (Registry.length_keysInOrder_of_file fun _ hm => file_of_mem_methods hm)
  rw [Registry.size, ← Array.length_toList, records_ofFiles t style hnd hfree, List.length_flatMap]
  simp only [hfile]

theorem get?_ofFiles (hnd : (files.map Path.displayName).Nodup)
    (hfree : ∀ p ∈ files, Keying.SeparatorFree p.displayName) {p : Path} (hp : p ∈ files)
    (hlanguage : p.language?.isSome = true) (name : String) :
    (ofFiles t style { keying := .fileAndName } files).registry.get?
        (Keying.fileAndName.key name p.displayName) =
      ((t.scanFile style p).methods.filter fun m => m.name == name).getLast? := by
  have hother : ∀ q ∈ files, q ≠ p → ∀ m ∈ (t.scanFile style q).methods,
      Keying.fileAndName.key m.name m.file ≠ Keying.fileAndName.key name p.displayName := by
    intro q hq hne m hm he
    rw [file_of_mem_methods hm] at he
    have hqend := not_colon_suffix_displayName (language?_of_mem_methods hm)
    have hpend := not_colon_suffix_displayName hlanguage
    have hname := (Keying.eq_of_key_eq (hfree q hq) (hfree p hp) hqend hpend he).1
    exact hne (List.inj_on_of_nodup_map hnd hq hp hname)
  rw [registry_ofFiles, ← Registry.lastWith_of_file fun _ hm => file_of_mem_methods hm]
  exact Registry.get?_flatMap _ hp hother

/-- A directory whose source files have no separator in their names is surveyed, and with
files in the keys there are as many records as the files have distinct method names, counted
file by file. Under a file and a name stands the last method of that name that the scan of the
file alone gives, and nothing if it gives none. -/
theorem ofDirectory_keeps_files_apart {t : Tree} (ht : t.WellFormed) (style : DeclarationStyle)
    {directory : Path} (hdirectory : t.isDirectory directory = true)
    (hfree : ∀ files, t.sourceFiles directory = .ok files →
      ∀ p ∈ files, Keying.SeparatorFree p.displayName) (length : Nat) :
    ∃ files survey, t.sourceFiles directory = .ok files ∧
      ofDirectory t style .fileAndName directory = .ok survey ∧
      (survey.registry.report length).recorded =
        (files.map fun p =>
          ((t.scanFile style p).methods.map MethodRecord.name).eraseDups.length).sum ∧
      ∀ p ∈ files, ∀ name, survey.registry.get? (Keying.fileAndName.key name p.displayName) =
        ((t.scanFile style p).methods.filter fun m => m.name == name).getLast? := by
  obtain ⟨files, hfiles⟩ := Tree.exists_sourceFiles hdirectory
  have hnd := Tree.nodup_displayName_sourceFiles ht hfiles
  have hf := hfree files hfiles
  refine ⟨files, ofFiles t style { keying := .fileAndName } files, hfiles, ?_,
    size_ofFiles t style hnd hf, fun p hp name => ?_⟩
  · rw [ofDirectory, hfiles]
    rfl
  · exact get?_ofFiles t style hnd hf hp (Tree.language?_of_mem_sourceFiles ht hfiles hp) name

/-- Methods with a separator in their name: two in one file, and one in a file that stands in
another directory and is led to by a link. -/
def overloads : Tree :=
  Tree.ofEntries
    [(.ofString "src/A.java",
        .file { bytes := Text.Utf8.encode "public a::f()\x7b\x7d\npublic a::f()\x7bif\x7d".toList }),
      (.ofString "lib/b",
        .file { bytes := Text.Utf8.encode "fun f()\x7b\x7d\nfun a::f()\x7b\x7d".toList }),
      (.ofString "src/b.kt", .link (.ofString "../lib/b"))]

theorem overloads_kept_apart :
    ∃ survey, ofDirectory overloads .leading .fileAndName (.ofString "src") = .ok survey ∧
      (survey.registry.report 3).recorded = 3 ∧
      survey.registry.get? "A.java::a::f" = some ⟨"a::f", "A.java", 1⟩ ∧
      survey.registry.get? "b.kt::a::f" = some ⟨"a::f", "b.kt", 0⟩ := by
  let java := Path.ofString "src/A.java"
  let kotlin := Path.ofString "src/b.kt"
  have hlisted : overloads.sourceFiles (.ofString "src") = .ok [java, kotlin] := by decide +kernel
  have hfree : ∀ files, overloads.sourceFiles (.ofString "src") = .ok files →
      ∀ p ∈ files, Keying.SeparatorFree p.displayName := by
    intro files hfiles
    obtain rfl : [java, kotlin] = files := Except.ok.inj (hlisted.symm.trans hfiles)
    decide +kernel
  obtain ⟨files, survey, hfiles, hsurvey, hrecorded, hget⟩ :=
    ofDirectory_keeps_files_apart (Tree.wellFormed_ofEntries _) .leading (by decide +kernel) hfree 3
  obtain rfl : [java, kotlin] = files := Except.ok.inj (hlisted.symm.trans hfiles)
  have hjava := hget java List.mem_cons_self "a::f"
  have hkotlin := hget kotlin (List.mem_cons_of_mem _ List.mem_cons_self) "a::f"
  rw [show Keying.fileAndName.key "a::f" java.displayName = "A.java::a::f" by decide +kernel]
    at hjava
  rw [show Keying.fileAndName.key "a::f" kotlin.displayName = "b.kt::a::f" by decide +kernel]
    at hkotlin
  exact ⟨survey, hsurvey, hrecorded.trans (by decide +kernel), hjava.trans (by decide +kernel),
    hkotlin.trans (by decide +kernel)⟩

end MethodSurvey.Survey
