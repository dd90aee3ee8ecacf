import Mathlib.Data.List.Basic
import Mathlib.Data.List.Infix
import MethodSurvey.Text.Pieces

/-! The pieces of a sequence that terminators cut: none holds a terminator, and what stands
in front of a sequence goes to the first piece, or is cut on its own. What follows the last
terminator has no part in the complete pieces. -/

namespace MethodSurvey.Text

variable {α : Type}

/-- The longest beginning of a sequence that a terminator ends, or the empty one. -/
structure LongestEnded (terminator : α) (s start : List α) : Prop where
  begins : start <+: s
  ends : start = [] ∨ start.getLast? = some terminator
  longest : ∀ other, other <+: s → other.getLast? = some terminator → other <+: start

theorem exists_longestEnded (terminator : α) (s : List α) :
    ∃ start, LongestEnded terminator s start := by
  induction s using List.reverseRecOn with
  | nil => exact ⟨[], List.prefix_rfl, .inl rfl, fun _ ho _ => ho⟩
  | append_singleton s c ih =>
    by_cases hc : c = terminator
    · exact ⟨s ++ [c], List.prefix_rfl, .inr (by simp [hc]), fun _ ho _ => ho⟩
    · obtain ⟨start, h⟩ := ih
      refine ⟨start, h.begins.trans (List.prefix_append _ _), h.ends, fun other ho hend => ?_⟩
      rcases List.prefix_concat_iff.mp ho with rfl | ho
      · simp [hc] at hend
      · exact h.longest other ho hend

theorem LongestEnded.exists_rest {terminator : α} {s start : List α}
    (h : LongestEnded terminator s start) :
    ∃ rest, s = start ++ rest ∧ terminator ∉ rest := by
  obtain ⟨rest, hs⟩ := h.begins
  refine ⟨rest, hs.symm, fun hm => ?_⟩
  obtain ⟨a, b, rfl⟩ := List.append_of_mem hm
  have hlonger : start ++ (a ++ [terminator]) <+: start :=
    h.longest _ ⟨b, by simp [← hs]⟩ (by simp [← List.append_assoc])
  have hlen := hlonger.length_le
  simp only [List.length_append, List.length_singleton] at hlen
  omega

variable [BEq α]

theorem pieces_ne_nil (terminator : α) (s : List α) : pieces terminator s ≠ [] := by
  cases s with
  | nil => simp [pieces]
  | cons c s =>
    simp only [pieces, List.foldr_cons]
    split
    · simp
    · split <;> simp

theorem mem_pieces_of_mem_allPieces {terminator : α} {s piece : List α}
    (h : piece ∈ allPieces terminator s) : piece ∈ pieces terminator s := by
  rcases List.mem_append.mp h with hcomplete | hlast
  · exact List.mem_of_mem_dropLast hcomplete
  · obtain ⟨-, hlast⟩ := List.mem_ite_nil_left.mp hlast
    rw [List.mem_singleton.mp hlast, lastPiece,
      List.getLast?_eq_some_getLast (pieces_ne_nil terminator s), Option.getD_some]
    exact List.getLast_mem _

theorem pieces_cons (terminator c : α) (s : List α) :
    pieces terminator (c :: s) =
      if c == terminator then [] :: pieces terminator s
      else (pieces terminator s).modifyHead (c :: ·) := by
  obtain ⟨piece, others, hp⟩ := List.exists_cons_of_ne_nil (pieces_ne_nil terminator s)
  rw [hp]
  simp only [pieces] at hp
  simp [pieces, hp]

variable [LawfulBEq α] {terminator : α}

theorem pieces_append_of_not_mem {a : List α} (h : terminator ∉ a) (s : List α) :
    pieces terminator (a ++ s) = (pieces terminator s).modifyHead (a ++ ·) := by
  induction a with
  | nil => cases hp : pieces terminator s <;> simp [hp]
  | cons c a ih =>
    have hc : (c == terminator) = false := beq_eq_false_iff_ne.mpr fun he => h (by simp [he])
    rw [List.cons_append, pieces_cons, hc, ih (fun hm => h (List.mem_cons_of_mem _ hm))]
    simp [Function.comp_def]

theorem pieces_of_not_mem {s : List α} (h : terminator ∉ s) : pieces terminator s = [s] := by
  have hp := pieces_append_of_not_mem h []
  rw [List.append_nil] at hp
  rw [hp]
  exact congrArg (fun piece => [piece]) (List.append_nil s)

theorem pieces_append_terminator (terminator : α) (s later : List α) :
    pieces terminator (s ++ terminator :: later) =
      pieces terminator s ++ pieces terminator later := by
  induction s with
  | nil =>
    rw [List.nil_append, pieces_cons, if_pos (beq_self_eq_true terminator)]
    rfl
  | cons c s ih =>
    obtain ⟨first, others, hp⟩ := List.exists_cons_of_ne_nil (pieces_ne_nil terminator s)
    rw [List.cons_append, pieces_cons, pieces_cons, ih, hp]
    split <;> rfl

theorem not_mem_of_mem_pieces {s piece : List α} (h : piece ∈ pieces terminator s) :
    terminator ∉ piece := by
  induction s generalizing piece with
  | nil =>
    obtain rfl : piece = [] := List.mem_singleton.mp h
    exact List.not_mem_nil
  | cons c s ih =>
    obtain ⟨first, others, hp⟩ := List.exists_cons_of_ne_nil (pieces_ne_nil terminator s)
    rw [pieces_cons] at h
    by_cases hc : (c == terminator) = true
    · rw [if_pos hc] at h
      rcases List.mem_cons.mp h with rfl | h
      · exact List.not_mem_nil
      · exact ih h
    · rw [if_neg hc, hp, List.modifyHead_cons] at h
      rw [hp] at ih
      rcases List.mem_cons.mp h with rfl | h
      · intro hm
        rcases List.mem_cons.mp hm with rfl | hm
        · exact hc (beq_self_eq_true _)
        · exact ih List.mem_cons_self hm
      · exact ih (List.mem_cons_of_mem _ h)

theorem completePieces_of_not_mem {s : List α} (h : terminator ∉ s) :
    completePieces terminator s = [] := by
  rw [completePieces, pieces_of_not_mem h]
  rfl

theorem completePieces_append_terminator (s : List α) {rest : List α} (h : terminator ∉ rest) :
    completePieces terminator (s ++ terminator :: rest) = pieces terminator s := by
  rw [completePieces, pieces_append_terminator, pieces_of_not_mem h, List.dropLast_concat]

theorem allPieces_append_terminator {a : List α} (h : terminator ∉ a) (s : List α) :
    allPieces terminator (a ++ terminator :: s) = a :: allPieces terminator s := by
  have hp : pieces terminator (a ++ terminator :: s) = a :: pieces terminator s := by
    rw [pieces_append_terminator, pieces_of_not_mem h, List.singleton_append]
  have hne := pieces_ne_nil terminator s
  have hlast : lastPiece terminator (a ++ terminator :: s) = lastPiece terminator s := by
    rw [lastPiece, lastPiece, hp, List.getLast?_cons_of_ne_nil hne]
  rw [allPieces, allPieces, completePieces, completePieces, hlast, hp,
    List.dropLast_cons_of_ne_nil hne, List.cons_append]

/-- Pieces that are each ended by a terminator are cut there. -/
theorem allPieces_flatMap {β : Type} {piece : β → List α} (h : ∀ b, terminator ∉ piece b)
    (bs : List β) :
    allPieces terminator (bs.flatMap fun b => piece b ++ [terminator]) = bs.map piece := by
  induction bs with
  | nil => rfl
  | cons b bs ih =>
    rw [List.flatMap_cons, List.append_assoc, List.singleton_append,
      allPieces_append_terminator (h b), ih, List.map_cons]

/-- The complete pieces of a sequence are all pieces of its part up to the last terminator. -/
theorem LongestEnded.completePieces_eq {s start : List α} (h : LongestEnded terminator s start) :
    completePieces terminator s = allPieces terminator start := by
  obtain ⟨rest, rfl, hrest⟩ := h.exists_rest
  rcases h.ends with rfl | hend
  · exact completePieces_of_not_mem hrest
  · obtain ⟨body, rfl⟩ := List.getLast?_eq_some_iff.mp hend
    have hlast : lastPiece terminator (body ++ [terminator]) = [] := by
      rw [lastPiece, pieces_append_terminator, pieces_of_not_mem List.not_mem_nil]
      simp
    rw [allPieces, hlast, completePieces_append_terminator body List.not_mem_nil,
      List.append_assoc, List.singleton_append, completePieces_append_terminator body hrest]
    exact (List.append_nil _).symm

end MethodSurvey.Text
