import Mathlib.Data.List.Sort
import MethodSurvey.Proofs.Files.Listing

/-! The sources of a directory: the names and the contents of its source files. They decide
which files are listed and what a scan of each one gives. -/

namespace MethodSurvey

/-- Whether a name is UTF-8 and ends as those of one of the languages do. -/
def FileName.isSource (name : FileName) : Bool :=
  match Text.Utf8.decode? name with
  | some text => ".java".toList.isSuffixOf text || ".kt".toList.isSuffixOf text
  | none => false

theorem FileName.isSource_eq (name : FileName) :
    name.isSource = (Language.ofFileName? name).isSome := by
  cases hd : Text.Utf8.decode? name with
  | none => simp [isSource, Language.ofFileName?, hd]
  | some text =>
    simp only [isSource, Language.ofFileName?, hd, Option.bind_eq_bind, Option.bind_some]
    rw [Bool.eq_iff_iff, List.find?_isSome]
    simp [Language.all, Language.extension]

namespace Language

theorem mergeSort_eq_of_perm {names names' : List FileName} (h : names.Perm names') :
    (names.mergeSort fun a b => a ≤ b) = names'.mergeSort fun a b => a ≤ b := by
  have hperm := (List.mergeSort_perm names fun a b => a ≤ b).trans
    (h.trans (List.mergeSort_perm names' fun a b => a ≤ b).symm)
  exact hperm.eq_of_pairwise' (List.pairwise_mergeSort' (· ≤ ·) names)
    (List.pairwise_mergeSort' (· ≤ ·) names')

/-- Neither the order of the names matters nor the names that select no language. -/
theorem sourceNames_eq_of_mem_iff {names names' : List FileName} (hnd : names.Nodup)
    (hnd' : names'.Nodup)
    (h : ∀ name : FileName, name.isSource = true → (name ∈ names ↔ name ∈ names')) :
    sourceNames names = sourceNames names' := by
  rw [sourceNames, sourceNames]
  congr 1
  funext language
  apply mergeSort_eq_of_perm
  apply (List.perm_ext_iff_of_nodup (hnd.filter _) (hnd'.filter _)).mpr
  intro name
  rw [List.mem_filter, List.mem_filter]
  apply and_congr_left
  intro hl
  apply h
  rw [FileName.isSource_eq, of_decide_eq_true hl]
  rfl

end Language

namespace Tree

/-- The source files that stand directly in a directory, links to files followed: the name of
each with what the file holds. -/
def sources (t : Tree) (directory : Path) : List (FileName × Stream) :=
  match t.place directory with
  | .ok (.directory location) =>
    (t.namesIn location).filterMap fun name =>
      match t.place (directory.join name) with
      | .ok (.file content) => if name.isSource then some (name, content) else none
      | _ => none
  | _ => []

variable {t t' : Tree} {directory : Path}

theorem mem_sources_iff {location : Location} (hp : t.place directory = .ok (.directory location))
    {name : FileName} {content : Stream} :
    (name, content) ∈ t.sources directory ↔ name ∈ t.namesIn location ∧ name.isSource = true ∧
      t.place (directory.join name) = .ok (.file content) := by
  rw [sources, hp, List.mem_filterMap]
  constructor
  · rintro ⟨other, hmem, hs⟩
    split at hs
    next found hplace =>
      by_cases hsource : other.isSource = true
      · rw [if_pos hsource] at hs
        obtain ⟨rfl, rfl⟩ := Prod.mk.inj (Option.some.inj hs)
        exact ⟨hmem, hsource, hplace⟩
      · rw [if_neg hsource] at hs
        cases hs
    next => cases hs
  · rintro ⟨hmem, hsource, hplace⟩
    refine ⟨name, hmem, ?_⟩
    rw [hplace]
    exact if_pos hsource

theorem isFile_iff {p : Path} : t.isFile p = true ↔ ∃ content, t.place p = .ok (.file content) := by
  rw [isFile]
  split
  next content hp => exact ⟨fun _ => ⟨content, hp⟩, fun _ => rfl⟩
  next hp =>
    exact ⟨fun h => absurd h Bool.false_ne_true, fun ⟨content, hc⟩ => absurd hc (hp content)⟩

/-- A source name leads to a file of the directory where it is that of a source. -/
theorem mem_files_iff {location : Location} (hp : t.place directory = .ok (.directory location))
    {name : FileName} (hsource : name.isSource = true) :
    (name ∈ (t.namesIn location).filter fun name => t.isFile (directory.join name)) ↔
      ∃ content, (name, content) ∈ t.sources directory := by
  simp only [List.mem_filter, isFile_iff, mem_sources_iff hp, hsource, true_and, exists_and_left]

/-- Directories with the same sources list the same files. -/
theorem sourceFiles_eq_of_sources (ht : t.WellFormed) (ht' : t'.WellFormed)
    (hd : t.isDirectory directory = true) (hd' : t'.isDirectory directory = true)
    (h : ∀ source, source ∈ t.sources directory ↔ source ∈ t'.sources directory) :
    t.sourceFiles directory = t'.sourceFiles directory := by
  obtain ⟨location, hp⟩ := exists_location_of_isDirectory hd
  obtain ⟨location', hp'⟩ := exists_location_of_isDirectory hd'
  have hnames : Language.sourceNames
        ((t.namesIn location).filter fun name => t.isFile (directory.join name)) =
      Language.sourceNames
        ((t'.namesIn location').filter fun name => t'.isFile (directory.join name)) := by
    apply Language.sourceNames_eq_of_mem_iff ((nodup_namesIn ht location).filter _)
      ((nodup_namesIn ht' location').filter _)
    intro name hsource
    rw [mem_files_iff hp hsource, mem_files_iff hp' hsource]
    exact exists_congr fun content => h (name, content)
  simp only [sourceFiles, hp, hp', hnames]

theorem scanFile_eq_of_place (style : DeclarationStyle) {p : Path} (h : t.place p = t'.place p) :
    t.scanFile style p = t'.scanFile style p := by
  have hopen : t.openFile p = t'.openFile p := by
    rw [openFile, openFile, h]
  rw [scanFile, scanFile, hopen]

/-- A listed file is a source of the directory. -/
theorem exists_source_of_mem_sourceFiles {files : List Path} {location : Location}
    (hp : t.place directory = .ok (.directory location))
    (hfiles : t.sourceFiles directory = .ok files) {p : Path} (h : p ∈ files) :
    ∃ name content, p = directory.join name ∧ (name, content) ∈ t.sources directory := by
  simp only [sourceFiles, hp] at hfiles
  by_cases hs : directory.isStandardInput = true
  · rw [if_pos hs] at hfiles
    cases hfiles
    cases h
  · rw [if_neg hs] at hfiles
    cases hfiles
    obtain ⟨name, hn, rfl⟩ := List.mem_map.mp h
    obtain ⟨hname, hlanguage⟩ := Language.mem_sourceNames_iff.mp hn
    have hsource : name.isSource = true := name.isSource_eq.trans hlanguage
    obtain ⟨content, hc⟩ := (mem_files_iff hp hsource).mp hname
    exact ⟨name, content, rfl, hc⟩

/-- The listed files are the same in both trees, also behind links. -/
theorem place_eq_of_mem_sourceFiles {files : List Path} (hd : t.isDirectory directory = true)
    (hd' : t'.isDirectory directory = true)
    (h : ∀ source, source ∈ t.sources directory ↔ source ∈ t'.sources directory)
    (hfiles : t.sourceFiles directory = .ok files) {p : Path} (hmem : p ∈ files) :
    t.place p = t'.place p := by
  obtain ⟨location, hp⟩ := exists_location_of_isDirectory hd
  obtain ⟨location', hp'⟩ := exists_location_of_isDirectory hd'
  obtain ⟨name, content, rfl, hs⟩ := exists_source_of_mem_sourceFiles hp hfiles hmem
  have hs' := (h (name, content)).mp hs
  rw [((mem_sources_iff hp).mp hs).2.2, ((mem_sources_iff hp').mp hs').2.2]

end Tree

end MethodSurvey
