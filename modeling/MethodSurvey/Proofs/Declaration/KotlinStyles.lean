import MethodSurvey.Proofs.Declaration.FirstSpace
import MethodSurvey.Proofs.Declaration.Readings
import MethodSurvey.Proofs.Declaration.Signature

/-! Where the two styles give a Kotlin function the same name. The strict style takes any blanks
between the keyword and the name; the leading one goes on from the first space of the line, which
then has to be the last of them. -/

namespace MethodSurvey.Declaration

open Text

namespace Strict.Signature

variable (g : Signature)

/-- What stands before the name of a function. -/
def untilName : List Char := ['f', 'u', 'n'] ++ g.beforeName

theorem untilName_prefix_functionLine : g.untilName <+: g.functionLine :=
  ⟨_, by rw [untilName, functionLine, text, List.append_assoc]⟩

theorem opensFunction : Leading.OpensFunction g.functionLine :=
  ⟨g.text, rfl, endsWord_gap g.beforeName_ne_nil g.isBlank_beforeName⟩

/-- The name begins after the first space if no other blank stands between them. -/
theorem afterFirstSpace_functionLine_iff :
    Leading.afterFirstSpace g.functionLine = byteLength g.untilName ↔
      ∃ gap, g.beforeName = gap ++ [' '] ∧ ' ' ∉ gap := by
  constructor
  · intro hoffset
    by_cases hspace : ' ' ∈ g.functionLine
    · obtain ⟨start, after, hsplit, hstart⟩ := List.eq_append_cons_of_mem hspace
      rw [hsplit, Leading.afterFirstSpace_append hstart] at hoffset
      have hcut : start ++ [' '] <+: g.functionLine := ⟨after, by simp [hsplit]⟩
      have huntil := eq_of_prefix_of_byteLength_eq g.untilName_prefix_functionLine hcut hoffset.symm
      obtain ⟨gap, last, hgap⟩ :=
        (List.eq_nil_or_concat' g.beforeName).resolve_left g.beforeName_ne_nil
      rw [untilName, hgap, ← List.append_assoc] at huntil
      obtain ⟨rfl, hlast⟩ := List.append_inj' huntil rfl
      exact ⟨gap, hlast ▸ hgap, fun hm => hstart (List.mem_append_right _ hm)⟩
    · rw [Leading.afterFirstSpace_of_not_mem hspace] at hoffset
      have hpositive : 0 < byteLength g.untilName := byteLength_pos (by simp [untilName])
      omega
  · rintro ⟨gap, hgap, hspace⟩
    have hstart : ' ' ∉ ['f', 'u', 'n'] ++ gap := by simpa using hspace
    have hline : g.functionLine = ['f', 'u', 'n'] ++ gap ++
        ' ' :: (g.name ++ (g.afterName ++ '(' :: ending g.parameters g.beforeBody)) := by
      simp [functionLine, text, hgap]
    rw [hline, Leading.afterFirstSpace_append hstart, untilName, hgap, ← List.append_assoc]

theorem leading_kotlinName?_iff : Leading.kotlinName? g.functionLine = some g.name ↔
    (∃ gap, g.beforeName = gap ++ [' '] ∧ ' ' ∉ gap) ∧ g.afterName = [] := by
  have hkeyword : '(' ∉ ['f', 'u', 'n'] := by decide
  have hname := g.nameFrom?_iff hkeyword (Leading.afterFirstSpace g.functionLine)
  rw [Leading.kotlinName?, Option.ite_none_right_eq_some, Leading.afterFun?_isSome_iff,
    and_iff_right g.opensFunction, and_comm, ← g.afterFirstSpace_functionLine_iff]
  exact hname

end Strict.Signature

/-- Where the strict style declares a Kotlin function, its line has parts. The leading style gives
the function the same name exactly if the blanks before the name end with a space, which is the
only one among them, and the parameters follow the name at once. -/
theorem function_styles_agree_iff {line name : List Char}
    (h : Profile.declaredName? ⟨.kotlin, .strict⟩ line = some name) :
    (∃ g : Strict.Signature, g.functionLine = line) ∧
      ∀ g : Strict.Signature, g.functionLine = line → g.name = name ∧
        (Profile.declaredName? ⟨.kotlin, .leading⟩ line = some name ↔
          (∃ gap, g.beforeName = gap ++ [' '] ∧ ' ' ∉ gap) ∧ g.afterName = []) := by
  obtain ⟨g, hg, hname⟩ := Strict.kotlinName?_eq_some_iff.mp h
  refine ⟨⟨g, hg⟩, ?_⟩
  rintro g' hg'
  obtain rfl : g' = g := Strict.Signature.functionLine_injective (hg'.trans hg.symm)
  subst hg hname
  exact ⟨rfl, g'.leading_kotlinName?_iff⟩

/-- A function with two spaces before its name. -/
def twoSpaces : Strict.Signature where
  beforeName := "  ".toList
  name := "size".toList
  afterName := "".toList
  parameters := "xs: IntArray".toList
  beforeBody := " ".toList
  beforeName_ne_nil := by decide
  isBlank_beforeName := List.all_eq_true.mp (by decide)
  name_ne_nil := by decide
  isAsciiWord_name := List.all_eq_true.mp (by decide)
  isBlank_afterName := List.all_eq_true.mp (by decide)
  lineFeed_not_mem_parameters := by decide
  isBlank_beforeBody := List.all_eq_true.mp (by decide)

theorem function_styles_differ_on_twoSpaces :
    Profile.declaredName? ⟨.kotlin, .strict⟩ twoSpaces.functionLine = some "size".toList ∧
      Profile.declaredName? ⟨.kotlin, .leading⟩ twoSpaces.functionLine ≠ some "size".toList := by
  have hstrict : Profile.declaredName? ⟨.kotlin, .strict⟩ twoSpaces.functionLine =
      some "size".toList := by
    decide
  obtain ⟨-, hagree⟩ := (function_styles_agree_iff hstrict).2 twoSpaces rfl
  refine ⟨hstrict, fun hleading => ?_⟩
  obtain ⟨⟨gap, hgap, hspace⟩, -⟩ := hagree.mp hleading
  obtain ⟨rfl, -⟩ := List.append_inj' (show [' '] ++ [' '] = gap ++ [' '] from hgap) rfl
  exact hspace (List.mem_singleton_self ' ')

/-- More than a single space may stand before a name on which the styles agree. -/
theorem function_styles_agree_after_tab :
    let gap := ['\t', ' ']
    let line := ['f', 'u', 'n'] ++ gap ++ "size".toList ++ "() \x7b".toList
    Profile.declaredName? ⟨.kotlin, .strict⟩ line = some "size".toList ∧
      Profile.declaredName? ⟨.kotlin, .leading⟩ line = some "size".toList ∧ gap ≠ [' '] := by
  decide +kernel

end MethodSurvey.Declaration
