import MethodSurvey.Path
import MethodSurvey.Proofs.Text.Pieces

/-! The names that a path is made of: no step holds a slash, and the path of an entry of a
directory ends in the name of the entry. -/

namespace MethodSurvey

/-- A name that stands for a step of its own wherever it stands in a path. -/
structure FileName.Proper (name : FileName) : Prop where
  slash : Path.slash ∉ name
  ne_nil : name ≠ []
  ne_here : name ≠ Path.here
  ne_parent : name ≠ Path.parent

namespace Path

theorem slash_not_mem_of_mem_steps {p : Path} {step : FileName} (h : step ∈ p.steps) :
    slash ∉ step :=
  Text.not_mem_of_mem_pieces h

theorem steps_join (directory : Path) {name : FileName} (h : slash ∉ name) :
    ∃ before, (directory.join name).steps = before ++ [name] := by
  rw [join]
  by_cases hd : directory.bytes = [] ∨ directory.bytes.getLast? = some slash
  · rw [if_pos hd]
    rcases hd with hd | hd
    · exact ⟨[], by rw [steps, hd, List.nil_append, Text.pieces_of_not_mem h]; rfl⟩
    · obtain ⟨start, hs⟩ := List.getLast?_eq_some_iff.mp hd
      refine ⟨Text.pieces slash start, ?_⟩
      rw [steps, hs, List.append_assoc, List.singleton_append, Text.pieces_append_terminator,
        Text.pieces_of_not_mem h]
  · rw [if_neg hd]
    refine ⟨directory.steps, ?_⟩
    rw [steps, Text.pieces_append_terminator, Text.pieces_of_not_mem h]
    rfl

theorem fileName?_join (directory : Path) {name : FileName} (h : name.Proper) :
    (directory.join name).fileName? = some name := by
  obtain ⟨before, hs⟩ := steps_join directory h.slash
  have hkept : decide (name ≠ [] ∧ name ≠ here) = true := decide_eq_true ⟨h.ne_nil, h.ne_here⟩
  have hlast : (directory.join name).names.getLast? = some name := by
    rw [names, hs, List.filter_append, List.filter_singleton, hkept, cond_true,
      List.getLast?_concat]
  rw [fileName?, hlast]
  exact Option.filter_some_pos (decide_eq_true h.ne_parent)

theorem displayName_join (directory : Path) {name : FileName} (h : name.Proper) :
    (directory.join name).displayName = String.ofList (Text.Utf8.decodeLossy name) := by
  rw [displayName, fileName?_join directory h]

end Path

end MethodSurvey
