import MethodSurvey.Proofs.Registry.Blocks
import MethodSurvey.Proofs.Registry.FileKeys
import MethodSurvey.Proofs.Scan.CodeLines
import MethodSurvey.Proofs.Survey.Files
import MethodSurvey.Proofs.Text.WellFormed

/-! Where the methods of a survey come from: each carries the display name of its file, so
that keys with files keep the methods of files with different names apart. -/

namespace MethodSurvey

section Scan

variable (profile : Profile) (file : String)

theorem Scanner.file_of_mem_eventsOf {declared : Option (List Char)}
    {closed : Option (List Char × Nat)} {m : MethodRecord}
    (h : Event.method m ∈ eventsOf file declared closed) : m.file = file := by
  cases declared <;> cases closed <;> simp [eventsOf] at h <;> rw [h]

theorem Scanner.file_of_mem_step {s : Scanner} {line : List Char} {m : MethodRecord}
    (h : Event.method m ∈ (s.step profile file line).2) : m.file = file := by
  cases hc : (codeLine s.insideComment line).1 with
  | none =>
    rw [(step_comment profile file hc).2.2] at h
    cases h
  | some code =>
    rw [(step_code profile file hc).2.2] at h
    exact file_of_mem_eventsOf file h

theorem Scanner.file_of_mem_scan {s : Scanner} {lines : List (List Char)} {m : MethodRecord}
    (h : Event.method m ∈ (scan profile file s lines).2) : m.file = file := by
  induction lines generalizing s with
  | nil => cases h
  | cons line lines ih =>
    rcases List.mem_append.mp h with h | h
    · exact file_of_mem_step profile file h
    · exact ih h

end Scan

variable {t : Tree} {style : DeclarationStyle} {p : Path}

theorem mem_methods_iff {scan : FileScan ScanError} {m : MethodRecord} :
    m ∈ scan.methods ↔ Event.method m ∈ scan.events := by
  rw [FileScan.methods, List.mem_filterMap]
  constructor
  · rintro ⟨event, he, hr⟩
    cases event with
    | declaration conforming => cases hr
    | method method =>
      cases hr
      exact he
  · exact fun h => ⟨_, h, rfl⟩

theorem file_of_mem_methods {m : MethodRecord} (h : m ∈ (t.scanFile style p).methods) :
    m.file = p.displayName := by
  have hm := mem_methods_iff.mp h
  rw [Tree.scanFile] at hm
  split at hm
  · cases hm
  · split at hm
    · cases hm
    · exact Scanner.file_of_mem_scan _ _ hm

theorem language?_of_mem_methods {m : MethodRecord} (h : m ∈ (t.scanFile style p).methods) :
    p.language?.isSome = true := by
  cases hl : p.language? with
  | some language => rfl
  | none =>
    rw [FileScan.methods, Tree.scanFile, hl] at h
    cases h

theorem extension_suffix_of_ofFileName? {name : FileName} {language : Language}
    (h : Language.ofFileName? name = some language) :
    language.extension.toList <:+ Text.Utf8.decodeLossy name := by
  obtain ⟨text, ht, hf⟩ := Option.bind_eq_some_iff.mp h
  have hs := List.find?_some hf
  rw [Text.Utf8.decodeLossy_of_decode? ht]
  exact List.isSuffixOf_iff_suffix.mp hs

theorem extension_suffix_displayName {language : Language} (h : p.language? = some language) :
    language.extension.toList <:+ p.displayName.toList := by
  obtain ⟨name, hn, hl⟩ := Option.bind_eq_some_iff.mp h
  simp only [Path.displayName, hn, String.toList_ofList]
  exact extension_suffix_of_ofFileName? hl

theorem not_colon_suffix_displayName (h : p.language?.isSome = true) :
    ¬ [':'] <:+ p.displayName.toList := by
  obtain ⟨language, hl⟩ := Option.isSome_iff_exists.mp h
  exact Language.not_colon_suffix_of_extension_suffix (extension_suffix_displayName hl)

/-- Where no file holds a separator, keys tell apart the files as well as the names. -/
theorem displayName_and_name_eq_of_key_eq {q : Path} {m m' : MethodRecord}
    (hp : Keying.SeparatorFree p.displayName) (hq : Keying.SeparatorFree q.displayName)
    (hm : m ∈ (t.scanFile style p).methods) (hm' : m' ∈ (t.scanFile style q).methods)
    (h : Keying.fileAndName.key m.name m.file = Keying.fileAndName.key m'.name m'.file) :
    p.displayName = q.displayName ∧ m.name = m'.name := by
  rw [file_of_mem_methods hm, file_of_mem_methods hm'] at h
  have hpend := not_colon_suffix_displayName (language?_of_mem_methods hm)
  have hqend := not_colon_suffix_displayName (language?_of_mem_methods hm')
  exact Keying.eq_of_key_eq hp hq hpend hqend h

theorem Survey.keysApart_of_nodup {files : List Path} (hnd : (files.map Path.displayName).Nodup)
    (hfree : ∀ p ∈ files, Keying.SeparatorFree p.displayName) :
    files.Pairwise fun p q =>
      Registry.KeysApart .fileAndName (t.scanFile style p).methods (t.scanFile style q).methods := by
  refine List.Pairwise.imp_of_mem ?_ (List.pairwise_map.mp hnd)
  intro p q hp hq hne m hm m' hm' h
  exact hne (displayName_and_name_eq_of_key_eq (hfree p hp) (hfree q hq) hm hm' h).1

end MethodSurvey
