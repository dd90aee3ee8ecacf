import Mathlib.Data.List.Dedup
import MethodSurvey.Proofs.Files.WellFormed
import MethodSurvey.Proofs.Text.WellFormed
import MethodSurvey.SourceListing

/-! The source files of a directory: each name of the directory gives one file at most, and
different files have different display names. -/

namespace MethodSurvey

namespace Language

theorem decode?_of_ofFileName? {name : FileName} (h : (ofFileName? name).isSome = true) :
    ∃ text, Text.Utf8.decode? name = some text := by
  obtain ⟨language, hl⟩ := Option.isSome_iff_exists.mp h
  obtain ⟨text, ht, -⟩ := Option.bind_eq_some_iff.mp hl
  exact ⟨text, ht⟩

theorem proper_of_ofFileName? {name : FileName} (h : (ofFileName? name).isSome = true)
    (hslash : Path.slash ∉ name) : name.Proper := by
  refine ⟨hslash, ?_, ?_, ?_⟩ <;> rintro rfl <;> exact absurd h (by decide)

theorem mem_sourceNames_iff {names : List FileName} {name : FileName} :
    name ∈ sourceNames names ↔ name ∈ names ∧ (ofFileName? name).isSome = true := by
  simp only [sourceNames, List.mem_flatMap, List.mem_mergeSort, List.mem_filter,
    decide_eq_true_iff, Option.isSome_iff_exists]
  constructor
  · rintro ⟨language, -, hn, hl⟩
    exact ⟨hn, language, hl⟩
  · rintro ⟨hn, language, hl⟩
    exact ⟨language, by cases language <;> decide, hn, hl⟩

theorem nodup_sourceNames {names : List FileName} (h : names.Nodup) : (sourceNames names).Nodup := by
  refine List.nodup_flatMap.mpr ⟨fun language _ => ?_, ?_⟩
  · exact (List.mergeSort_perm _ _).nodup_iff.mpr (h.filter _)
  · refine List.Nodup.pairwise_of_forall_ne (by decide) fun language _ other _ hne => ?_
    intro name hn hn'
    have hl := of_decide_eq_true (List.mem_filter.mp (List.mem_mergeSort.mp hn)).2
    have ho := of_decide_eq_true (List.mem_filter.mp (List.mem_mergeSort.mp hn')).2
    exact hne (Option.some.inj (hl.symm.trans ho))

end Language

theorem Path.language?_join (directory : Path) {name : FileName} (h : name.Proper) :
    (directory.join name).language? = Language.ofFileName? name := by
  rw [language?, fileName?_join directory h]
  rfl

namespace Tree

variable {t : Tree}

theorem namesIn_eq (location : Location) :
    t.namesIn location = (t.entries.map Prod.fst).filterMap fun l =>
      if l.dropLast = location then l.getLast? else none := by
  rw [List.filterMap_map]
  rfl

/-- An entry of a directory has the location of the directory and its own name. -/
theorem eq_append_of_name {location l : Location} {name : FileName}
    (h : (if l.dropLast = location then l.getLast? else none) = some name) :
    l = location ++ [name] := by
  split at h
  next hl => rw [← hl, List.dropLast_append_getLast? name h]
  next => cases h

theorem nodup_namesIn (ht : t.WellFormed) (location : Location) : (t.namesIn location).Nodup := by
  rw [namesIn_eq]
  refine List.Nodup.filterMap (fun l l' name hl hl' => ?_) ht.distinct
  rw [eq_append_of_name hl, eq_append_of_name hl']

theorem slashFree_namesIn (ht : t.WellFormed) (location : Location) :
    SlashFree (t.namesIn location) := by
  intro name hn
  rw [namesIn_eq] at hn
  obtain ⟨l, hl, hname⟩ := List.mem_filterMap.mp hn
  refine ht.slashFree l hl name ?_
  rw [eq_append_of_name hname]
  exact List.mem_append_right _ List.mem_cons_self

variable {directory : Path} {files : List Path}

theorem exists_location_of_isDirectory (h : t.isDirectory directory = true) :
    ∃ location, t.place directory = .ok (.directory location) := by
  cases hp : t.place directory with
  | error fault => simp [isDirectory, hp] at h
  | ok place =>
    cases place with
    | file content => simp [isDirectory, hp] at h
    | directory location => exact ⟨location, rfl⟩

theorem exists_sourceFiles (h : t.isDirectory directory = true) :
    ∃ files, t.sourceFiles directory = .ok files := by
  obtain ⟨location, hp⟩ := exists_location_of_isDirectory h
  simp only [sourceFiles, hp]
  by_cases hs : directory.isStandardInput = true
  · exact ⟨_, if_pos hs⟩
  · exact ⟨_, if_neg hs⟩

theorem sourceFiles_eq_map_join (ht : t.WellFormed) (h : t.sourceFiles directory = .ok files) :
    ∃ names, names.Nodup ∧ SlashFree names ∧
      files = (Language.sourceNames names).map directory.join := by
  rw [sourceFiles] at h
  split at h
  next location hp =>
    dsimp only at h
    split at h
    · cases h
      have hnone : Language.sourceNames [] = [] := by simp [Language.sourceNames]
      exact ⟨[], List.nodup_nil, fun _ hn => absurd hn List.not_mem_nil, by rw [hnone]; rfl⟩
    · cases h
      exact ⟨_, (nodup_namesIn ht location).filter _,
        fun name hn => slashFree_namesIn ht location name (List.mem_of_mem_filter hn), rfl⟩
  next => cases h

theorem language?_of_mem_sourceFiles (ht : t.WellFormed)
    (h : t.sourceFiles directory = .ok files) {p : Path} (hp : p ∈ files) :
    p.language?.isSome = true := by
  obtain ⟨names, -, hslash, rfl⟩ := sourceFiles_eq_map_join ht h
  obtain ⟨name, hn, rfl⟩ := List.mem_map.mp hp
  obtain ⟨hname, hlanguage⟩ := Language.mem_sourceNames_iff.mp hn
  rw [Path.language?_join directory (Language.proper_of_ofFileName? hlanguage (hslash _ hname))]
  exact hlanguage

theorem nodup_displayName_sourceFiles (ht : t.WellFormed)
    (h : t.sourceFiles directory = .ok files) : (files.map Path.displayName).Nodup := by
  obtain ⟨names, hnd, hslash, rfl⟩ := sourceFiles_eq_map_join ht h
  rw [List.map_map]
  refine List.Nodup.map_on (fun name hn other ho he => ?_) (Language.nodup_sourceNames hnd)
  obtain ⟨hname, hlanguage⟩ := Language.mem_sourceNames_iff.mp hn
  obtain ⟨hother, hlanguage'⟩ := Language.mem_sourceNames_iff.mp ho
  obtain ⟨text, htext⟩ := Language.decode?_of_ofFileName? hlanguage
  obtain ⟨text', htext'⟩ := Language.decode?_of_ofFileName? hlanguage'
  have hd : String.ofList text = String.ofList text' := by
    rw [← Text.Utf8.decodeLossy_of_decode? htext, ← Text.Utf8.decodeLossy_of_decode? htext',
      ← Path.displayName_join directory (Language.proper_of_ofFileName? hlanguage (hslash _ hname)),
      ← Path.displayName_join directory (Language.proper_of_ofFileName? hlanguage' (hslash _ hother))]
    exact he
  have hs : text = text' := String.ofList_injective hd
  exact Text.Utf8.decode?_inj htext (hs ▸ htext')

end Tree

end MethodSurvey
