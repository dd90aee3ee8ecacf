import MethodSurvey.Proofs.Registry.FileKeys

/-! Equal keys of different methods. With files in the keys they arise in one way only: the file
of one method goes on, behind the file of the other and two colons, with the beginning of the
other name. -/

namespace MethodSurvey.Keying

/-- The name of a file ends so that it selects a language. -/
def SelectsLanguage (file : String) : Prop :=
  ∃ language ∈ Language.all, language.extension.toList <:+ file.toList

instance (file : String) : Decidable (SelectsLanguage file) :=
  inferInstanceAs (Decidable (∃ language ∈ Language.all, language.extension.toList <:+ file.toList))

theorem SelectsLanguage.not_colon_suffix {file : String} (h : SelectsLanguage file) :
    ¬ [':'] <:+ file.toList := by
  obtain ⟨language, -, hl⟩ := h
  exact Language.not_colon_suffix_of_extension_suffix hl

variable {file file' : String}

theorem key_append_eq_iff {overlap : String} (h : ¬ [':'] <:+ (file ++ overlap).toList)
    (name name' : String) :
    fileAndName.key name file = fileAndName.key name' (file ++ overlap) ↔
      overlap = "" ∧ name = name' ∨ ∃ s, overlap = "::" ++ s ∧ name = s ++ "::" ++ name' := by
  have hoverlap : overlap.toList ≠ [':'] := by
    intro ho
    rw [String.toList_append, ho] at h
    exact h (List.suffix_append file.toList [':'])
  rw [key_eq_key_iff, String.toList_append, List.append_assoc, List.append_cancel_left_eq,
    separator_append_eq_iff hoverlap]
  constructor
  · rintro (⟨ho, hn⟩ | ⟨s, ho, hn⟩)
    · exact .inl ⟨String.toList_inj.mp ho, String.toList_inj.mp hn⟩
    · refine .inr ⟨String.ofList s, String.toList_inj.mp ?_, String.toList_inj.mp ?_⟩
      · simp [ho, separator]
      · simp [hn, separator]
  · rintro (⟨rfl, rfl⟩ | ⟨s, rfl, rfl⟩)
    · exact .inl ⟨rfl, rfl⟩
    · exact .inr ⟨s.toList, by simp [separator], by simp [separator]⟩

/-- Of two files with equal keys, the one that is no longer begins the other. -/
theorem exists_append_of_key_eq {name name' : String}
    (hlength : file.length ≤ file'.length ∨ file.utf8ByteSize ≤ file'.utf8ByteSize)
    (h : fileAndName.key name file = fileAndName.key name' file') :
    ∃ overlap, file' = file ++ overlap := by
  have hl := key_eq_key_iff.mp h
  rcases List.append_eq_append_iff.mp hl with ⟨overlap, hf, -⟩ | ⟨overlap, hf, -⟩
  · exact ⟨String.ofList overlap, String.toList_inj.mp (by simp [hf])⟩
  · have hfile : file = file' ++ String.ofList overlap := String.toList_inj.mp (by simp [hf])
    have hempty : String.ofList overlap = "" := by
      rw [hfile, String.length_append, String.utf8ByteSize_append] at hlength
      rcases hlength with hchars | hbytes
      · exact String.length_eq_zero_iff.mp (by omega)
      · exact String.utf8ByteSize_eq_zero_iff.mp (by omega)
    exact ⟨"", by rw [hfile, hempty, String.append_empty, String.append_empty]⟩

/-- Let one file be no longer than another one, in characters or in bytes. Two methods in them have
one key if they are the same, or if the longer file is the shorter one with two colons and a text
behind it, and the name in the shorter file is that text with two colons and the other name behind
it. Files that hold no two colons never bring different methods under one key, and a name has
different keys in different files. -/
theorem key_collides_iff (hends : SelectsLanguage file) (hends' : SelectsLanguage file')
    (name name' : String) :
    (file.length ≤ file'.length ∨ file.utf8ByteSize ≤ file'.utf8ByteSize →
        (fileAndName.key name file = fileAndName.key name' file' ↔
          file = file' ∧ name = name' ∨
            ∃ s, file' = file ++ "::" ++ s ∧ name = s ++ "::" ++ name')) ∧
      (SeparatorFree file → SeparatorFree file' → (file, name) ≠ (file', name') →
        fileAndName.key name file ≠ fileAndName.key name' file') ∧
      (file ≠ file' → fileAndName.key name file ≠ fileAndName.key name file') := by
  refine ⟨fun hlength => ⟨fun h => ?_, ?_⟩, fun hfree hfree' hne h => ?_, fun hne h => ?_⟩
  · obtain ⟨overlap, rfl⟩ := exists_append_of_key_eq hlength h
    have hoverlap := (key_append_eq_iff hends'.not_colon_suffix name name').mp h
    rcases hoverlap with ⟨rfl, rfl⟩ | ⟨s, rfl, rfl⟩
    · exact .inl ⟨String.append_empty.symm, rfl⟩
    · exact .inr ⟨s, String.append_assoc.symm, rfl⟩
  · rintro (⟨rfl, rfl⟩ | ⟨s, rfl, rfl⟩)
    · rfl
    · have hfile : file ++ "::" ++ s = file ++ ("::" ++ s) := String.append_assoc
      rw [hfile] at hends' ⊢
      exact (key_append_eq_iff hends'.not_colon_suffix _ name').mpr (.inr ⟨s, rfl, rfl⟩)
  · obtain ⟨rfl, rfl⟩ :=
      eq_of_key_eq hfree hfree' hends.not_colon_suffix hends'.not_colon_suffix h
    exact hne rfl
  · exact hne ((key_left_inj name).mp h)

/-- One file is another one with two colons and the text `B.java` behind it. -/
theorem key_collides_of_nested :
    let short := "A.kt"
    let long := "A.kt::B.java"
    SelectsLanguage short ∧ SelectsLanguage long ∧
      fileAndName.key "B.java::run" short = fileAndName.key "run" long ∧
      fileAndName.key "run" short ≠ fileAndName.key "run" long ∧
      fileAndName.key "B.java::run" short ≠ fileAndName.key "run" "B.java" := by
  intro short long
  have hshort : SelectsLanguage short := by decide
  have hlong : SelectsLanguage long := by decide
  have hother : SelectsLanguage "B.java" := by decide
  obtain ⟨hcollides, -, -⟩ := key_collides_iff hshort hlong "B.java::run" "run"
  obtain ⟨-, -, hfiles⟩ := key_collides_iff hshort hlong "run" "run"
  obtain ⟨-, hfree, -⟩ := key_collides_iff hshort hother "B.java::run" "run"
  refine ⟨hshort, hlong, ?_, hfiles (by decide), hfree (by decide) (by decide) (by decide)⟩
  exact (hcollides (.inl (by decide))).mpr (.inr ⟨"B.java", by decide, by decide⟩)

end MethodSurvey.Keying
