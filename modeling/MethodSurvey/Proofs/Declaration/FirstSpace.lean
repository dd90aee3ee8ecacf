import MethodSurvey.Declaration
import MethodSurvey.Proofs.Declaration.Leading

/-! Kotlin functions in the leading style: the name stands between the first space and the first
parenthesis. A line without any space is named by all that stands before the parenthesis, so an
anonymous function declares its own keyword. -/

namespace MethodSurvey.Declaration.Leading

open Text

/-- The line begins with the word `fun`. -/
def OpensFunction (line : List Char) : Prop :=
  ∃ rest, line = ['f', 'u', 'n'] ++ rest ∧ endsWord rest = true

/-- The name stands between the first space of the line and its first parenthesis. -/
def NamedAfterSpace (line name : List Char) : Prop :=
  ∃ start rest, line = start ++ ' ' :: (name ++ '(' :: rest) ∧ ' ' ∉ start ∧ '(' ∉ start ∧
    name ≠ [] ∧ '(' ∉ name

theorem afterFun?_isSome_iff {line : List Char} :
    (afterFun? line).isSome = true ↔ OpensFunction line := by
  constructor
  · intro h
    unfold afterFun? at h
    split at h
    case h_1 rest =>
      have hrest : endsWord rest = true := by
        by_contra hr
        simp [hr] at h
      exact ⟨rest, rfl, hrest⟩
    case h_2 => simp at h
  · rintro ⟨rest, rfl, hrest⟩
    simp [afterFun?, hrest]

theorem nameFrom?_afterFirstSpace_iff {line name : List Char} :
    nameFrom? (afterFirstSpace line) line = some name ↔
      NamedAfterSpace line name ∨
        ' ' ∉ line ∧ name ≠ [] ∧ '(' ∉ name ∧ ∃ rest, line = name ++ '(' :: rest := by
  rw [nameFrom?_iff]
  constructor
  · rintro ⟨start, rest, hline, hspan, hne, hoffset⟩
    obtain ⟨hstart, hname⟩ := not_or.mp (mt List.mem_append.mpr hspan)
    by_cases hspace : ' ' ∈ line
    · obtain ⟨before, after, hsplit, hbefore⟩ := List.eq_append_cons_of_mem hspace
      rw [hsplit, afterFirstSpace_append hbefore] at hoffset
      have hcut : before ++ [' '] <+: line := ⟨after, by simp [hsplit]⟩
      obtain rfl : start = before ++ [' '] :=
        eq_of_prefix_of_byteLength_eq ⟨_, (List.append_assoc .. ▸ hline).symm⟩ hcut hoffset
      exact .inl ⟨before, rest, by simp [hline], hbefore, by simpa using hstart, hne, hname⟩
    · rw [afterFirstSpace_of_not_mem hspace] at hoffset
      obtain rfl := eq_nil_of_byteLength_eq_zero hoffset
      exact .inr ⟨hspace, hne, hname, rest, hline⟩
  · rintro (⟨start, rest, rfl, hspace, hstart, hne, hname⟩ | ⟨hspace, hne, hname, rest, rfl⟩)
    · exact ⟨start ++ [' '], rest, by simp, by simp [hstart, hname], hne,
        (afterFirstSpace_append hspace _).symm⟩
    · exact ⟨[], rest, rfl, hname, hne, (afterFirstSpace_of_not_mem hspace).symm⟩

/-- A line declares a function in the leading style if it begins with the word `fun` and has a name
after its first space, or has no space at all: then it is named by what stands before its first
parenthesis. -/
theorem function_declared_iff (line name : List Char) :
    Profile.declaredName? ⟨.kotlin, .leading⟩ line = some name ↔
      OpensFunction line ∧ (NamedAfterSpace line name ∨
        ' ' ∉ line ∧ '(' ∉ name ∧ ∃ rest, line = name ++ '(' :: rest) := by
  change kotlinName? line = some name ↔ _
  rw [kotlinName?, Option.ite_none_right_eq_some, afterFun?_isSome_iff,
    nameFrom?_afterFirstSpace_iff]
  refine and_congr_right fun hopens => or_congr_right (and_congr_right fun _ => ?_)
  -- The word in front is a part of the name where no space divides them.
  refine and_iff_right_of_imp ?_
  rintro ⟨-, rest, rfl⟩ rfl
  obtain ⟨after, hafter, -⟩ := hopens
  exact absurd (List.cons.inj hafter).1 (by decide)

/-- An anonymous function without a space declares its own keyword. -/
theorem keyword_declared_without_space :
    let line := "fun(x)".toList
    Profile.declaredName? ⟨.kotlin, .leading⟩ line = some "fun".toList ∧
      ¬ (OpensFunction line ∧ NamedAfterSpace line "fun".toList) := by
  intro line
  refine ⟨by decide +kernel, ?_⟩
  rintro ⟨-, start, rest, hline, -⟩
  have hspace : ' ' ∈ line := hline ▸ List.mem_append_right start List.mem_cons_self
  exact absurd hspace (by decide)

end MethodSurvey.Declaration.Leading
