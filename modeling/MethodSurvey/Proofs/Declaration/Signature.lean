import MethodSurvey.Proofs.Declaration.Leading
import MethodSurvey.Proofs.Declaration.Strict

/-! Signatures of the strict style as the leading one reads them. It cuts a name off at the first
parenthesis of the line, which leaves no room for blanks after the name. -/

namespace MethodSurvey.Declaration.Strict.Signature

open Text

variable (g : Signature) {before : List Char}

def untilParameters : List Char := g.beforeName ++ g.name ++ g.afterName

theorem text_eq :
    g.text = g.untilParameters ++ '(' :: ending g.parameters g.beforeBody := by
  simp [text, untilParameters]

theorem paren_not_mem_untilParameters : '(' ∉ g.untilParameters := by
  have hbefore := paren_not_mem_of_isBlank g.isBlank_beforeName
  have hname := paren_not_mem_of_isAsciiWord g.isAsciiWord_name
  have hafter := paren_not_mem_of_isBlank g.isBlank_afterName
  simp [untilParameters, hbefore, hname, hafter]

theorem nameFrom?_iff (hbefore : '(' ∉ before) (offset : Nat) :
    Leading.nameFrom? offset (before ++ g.text) = some g.name ↔
      g.afterName = [] ∧ offset = byteLength (before ++ g.beforeName) := by
  have hname : ∀ c ∈ g.name, isBlank c = false := fun c hc =>
    isBlank_eq_false_of_isAsciiWord (g.isAsciiWord_name c hc)
  have hspan : '(' ∉ before ++ g.untilParameters := by
    simp [hbefore, g.paren_not_mem_untilParameters]
  rw [text_eq, ← List.append_assoc, Leading.nameFrom?_eq_some_iff hspan]
  constructor
  · rintro ⟨-, start, hs, rfl⟩
    rw [untilParameters, ← List.append_assoc] at hs
    have hafter : g.afterName = [] :=
      eq_nil_of_append_eq_append hs g.isBlank_afterName g.name_ne_nil hname
    rw [hafter, List.append_nil, ← List.append_assoc] at hs
    exact ⟨hafter, congrArg byteLength (List.append_cancel_right hs).symm⟩
  · rintro ⟨hafter, rfl⟩
    exact ⟨g.name_ne_nil, before ++ g.beforeName, by simp [untilParameters, hafter], rfl⟩

end MethodSurvey.Declaration.Strict.Signature
