import Mathlib.Data.List.Find
import Mathlib.Data.List.Infix
import MethodSurvey.Language
import MethodSurvey.Proofs.Registry.LastWrite

/-! Keys made of a file and a method name: two colons stand between the parts, and where
the file has no such pair and does not end in a colon the key tells them apart. The methods
of one file are kept by their names. -/

namespace MethodSurvey

theorem Language.not_colon_suffix_of_extension_suffix {language : Language} {file : List Char}
    (h : language.extension.toList <:+ file) : ¬ [':'] <:+ file := by
  intro hc
  have hs := List.suffix_of_suffix_length_le hc h (by cases language <;> decide)
  cases language <;> exact absurd hs (by decide)

namespace Keying

/-- What stands between the file and the name. -/
def separator : List Char := [':', ':']

/-- A text in which the separator does not occur. -/
def SeparatorFree (s : String) : Prop :=
  ¬ separator <:+: s.toList

instance (s : String) : Decidable (SeparatorFree s) :=
  inferInstanceAs (Decidable (¬ separator <:+: s.toList))

theorem toList_key (name file : String) :
    (fileAndName.key name file).toList = file.toList ++ (separator ++ name.toList) := by
  simp [key, separator, String.toList_append]

theorem key_eq_key_iff {name name' file file' : String} :
    fileAndName.key name file = fileAndName.key name' file' ↔
      file.toList ++ (separator ++ name.toList) = file'.toList ++ (separator ++ name'.toList) := by
  rw [← String.toList_inj, toList_key, toList_key]

/-- A separator that begins behind one file, where the key of a longer file goes on with the rest
of that file: it is the separator of the longer file, or it belongs to the rest. -/
theorem separator_append_eq_iff {overlap name name' : List Char} (h : overlap ≠ [':']) :
    separator ++ name = overlap ++ (separator ++ name') ↔
      overlap = [] ∧ name = name' ∨
        ∃ s, overlap = separator ++ s ∧ name = s ++ (separator ++ name') := by
  constructor
  · intro heq
    cases overlap with
    | nil => exact .inl ⟨rfl, List.append_cancel_left heq⟩
    | cons c overlap =>
      obtain ⟨rfl, htail⟩ := List.cons.inj heq
      cases overlap with
      | nil => exact absurd rfl h
      | cons c s =>
        obtain ⟨rfl, hname⟩ := List.cons.inj htail
        exact .inr ⟨s, rfl, hname⟩
  · rintro (⟨rfl, rfl⟩ | ⟨s, rfl, rfl⟩)
    · rfl
    · rw [List.append_assoc]

/-- A separator that begins inside a longer file leaves a separator or a colon in it. -/
theorem eq_nil_of_separator_append {file overlap name name' : List Char}
    (h : separator ++ name = overlap ++ (separator ++ name'))
    (hfree : ¬ separator <:+: file ++ overlap) (hend : ¬ [':'] <:+ file ++ overlap) :
    overlap = [] := by
  have hoverlap : overlap ≠ [':'] := by
    rintro rfl
    exact hend (List.suffix_append file [':'])
  rcases (separator_append_eq_iff hoverlap).mp h with ⟨hnil, -⟩ | ⟨s, rfl, -⟩
  · exact hnil
  · exact absurd ⟨file, s, List.append_assoc ..⟩ hfree

theorem eq_of_key_eq {name name' file file' : String} (hfree : SeparatorFree file)
    (hfree' : SeparatorFree file') (hend : ¬ [':'] <:+ file.toList)
    (hend' : ¬ [':'] <:+ file'.toList)
    (h : fileAndName.key name file = fileAndName.key name' file') :
    file = file' ∧ name = name' := by
  have hl := key_eq_key_iff.mp h
  have hfile : file.toList = file'.toList := by
    -- One file is the other and an overlap, in which the separator of the shorter key begins.
    rcases List.append_eq_append_iff.mp hl with ⟨overlap, hf, hn⟩ | ⟨overlap, hf, hn⟩
    · rw [SeparatorFree, hf] at hfree'
      rw [hf] at hend'
      rw [hf, eq_nil_of_separator_append hn hfree' hend', List.append_nil]
    · rw [SeparatorFree, hf] at hfree
      rw [hf] at hend
      rw [hf, eq_nil_of_separator_append hn hfree hend, List.append_nil]
  rw [hfile] at hl
  have hname := List.append_cancel_left (List.append_cancel_left hl)
  exact ⟨String.toList_inj.mp hfile, String.toList_inj.mp hname⟩

theorem key_left_inj (name : String) {file file' : String} :
    fileAndName.key name file = fileAndName.key name file' ↔ file = file' := by
  rw [key_eq_key_iff, List.append_cancel_right_eq, String.toList_inj]

theorem key_right_inj (file : String) {name name' : String} :
    fileAndName.key name file = fileAndName.key name' file ↔ name = name' := by
  rw [key_eq_key_iff, List.append_cancel_left_eq, List.append_cancel_left_eq, String.toList_inj]

end Keying

namespace Registry

theorem eraseDups_map {f : String → String} (hf : Function.Injective f)
    (names : List String) : (names.map f).eraseDups = names.eraseDups.map f := by
  induction names using List.reverseRecOn with
  | nil => rfl
  | append_singleton names name ih =>
    rw [List.map_append, List.map_singleton, eraseDups_concat, eraseDups_concat, ih]
    by_cases hm : name ∈ names
    · rw [if_pos hm, if_pos (List.mem_map_of_mem hm)]
    · rw [if_neg hm, if_neg fun h => hm ((List.mem_map_of_injective hf).mp h), List.map_append,
        List.map_singleton]

section File

variable {methods : List MethodRecord} {file : String}

/-- The keys of the methods of one file are its distinct method names. -/
theorem length_keysInOrder_of_file (h : ∀ m ∈ methods, m.file = file) :
    (keysInOrder .fileAndName methods).length =
      (methods.map MethodRecord.name).eraseDups.length := by
  have hkeys : methods.map (fun m => Keying.fileAndName.key m.name m.file) =
      (methods.map MethodRecord.name).map fun name => Keying.fileAndName.key name file := by
    rw [List.map_map]
    exact List.map_congr_left fun m hm => by rw [h m hm]; rfl
  have hinj : Function.Injective fun name => Keying.fileAndName.key name file :=
    fun _ _ he => (Keying.key_right_inj file).mp he
  rw [keysInOrder, hkeys, eraseDups_map hinj, List.length_map]

theorem lastWith_of_file (h : ∀ m ∈ methods, m.file = file) (name : String) :
    lastWith .fileAndName methods (Keying.fileAndName.key name file) =
      (methods.filter fun m => m.name == name).getLast? := by
  rw [lastWith, List.getLast?_filter]
  refine List.find?_congr fun m hm => ?_
  rw [h m (List.mem_reverse.mp hm), Bool.eq_iff_iff, beq_iff_eq, beq_iff_eq, Keying.key_right_inj]

end File

end Registry

end MethodSurvey
