import MethodSurvey.Proofs.Declaration.Signature

/-! Where the two styles give a Java method the same name. The strict style reads the parts of
the line; the leading one agrees if its offset, which counts one byte after a return type, falls
on the beginning of the name. -/

namespace MethodSurvey.Declaration

open Text

namespace Strict.JavaReading

variable (r : JavaReading)

/-- The modifier and the type, with the blanks between them. -/
def untilType : List Char := r.modifier ++ (r.beforeType ++ r.typeName)

def untilName : List Char := r.untilType ++ r.signature.beforeName

theorem line_eq : r.line = r.untilType ++ r.signature.text := by
  simp [line, untilType]

theorem paren_not_mem_untilType : '(' ∉ r.untilType := by
  have hmodifier := (Leading.modifier_characters r.modifier r.modifier_mem).2
  have hgap := paren_not_mem_of_isBlank r.isBlank_beforeType
  have htype := paren_not_mem_of_isAsciiWord r.isAsciiWord_typeName
  simp [untilType, hmodifier, hgap, htype]

theorem untilName_prefix_line : r.untilName <+: r.line :=
  ⟨_, by rw [line_eq, untilName, Signature.text, List.append_assoc]⟩

theorem nameFrom?_line_iff (offset : Nat) :
    Leading.nameFrom? offset r.line = some r.name ↔
      r.signature.afterName = [] ∧ offset = byteLength r.untilName := by
  rw [line_eq]
  exact r.signature.nameFrom?_iff r.paren_not_mem_untilType offset

theorem opens_iff : Leading.javaModifiers.any (·.toList.isPrefixOf r.line) = true ↔
    r.beforeType.head? = some ' ' := by
  rw [line, Leading.opens_iff r.modifier_mem, List.head?_append_of_ne_nil _ r.beforeType_ne_nil]

theorem afterFirstSpace_lt (h : r.beforeType.head? = some ' ') :
    Leading.afterFirstSpace r.line < byteLength r.untilName := by
  obtain ⟨gap, hgap⟩ := List.head?_eq_some_iff.mp h
  have hmodifier := (Leading.modifier_characters r.modifier r.modifier_mem).1
  have htype := byteLength_pos r.typeName_ne_nil
  rw [line, hgap, List.cons_append, Leading.afterFirstSpace_append hmodifier]
  simp only [untilName, untilType, hgap, byteLength_append, byteLength_cons, byteLength_nil]
  omega

/-- One byte separates the type from the name if the name begins one byte after a return type,
since no return type has a blank in it. -/
theorem eq_untilType_of_byteLength {start word : List Char} (hbegins : start ++ word <+: r.line)
    (hne : word ≠ []) (hword : ∀ c ∈ word, isBlank c = false)
    (h : byteLength (start ++ word) + 1 = byteLength r.untilName) :
    (∃ c, r.signature.beforeName = [c] ∧ c.utf8Size = 1) ∧ start ++ word = r.untilType := by
  obtain ⟨t, ht⟩ := prefix_of_byteLength_le hbegins r.untilName_prefix_line (by omega)
  have hsize : byteLength t = 1 := by
    rw [← ht, byteLength_append (start ++ word)] at h
    omega
  obtain ⟨c, rfl, hc⟩ := exists_singleton_of_byteLength_eq_one hsize
  obtain ⟨gap, d, hgap⟩ := (List.eq_nil_or_concat' r.signature.beforeName).resolve_left
    r.signature.beforeName_ne_nil
  rw [untilName, hgap, ← List.append_assoc] at ht
  obtain ⟨hstart, hd⟩ := List.append_inj' ht rfl
  obtain rfl : c = d := by simpa using hd
  have hblank : ∀ a ∈ gap, isBlank a = true := fun a ha =>
    r.signature.isBlank_beforeName a (hgap ▸ List.mem_append_left _ ha)
  obtain rfl : gap = [] := eq_nil_of_append_eq_append hstart.symm hblank hne hword
  exact ⟨⟨c, hgap, hc⟩, by rw [hstart, List.append_nil]⟩

theorem offset_eq_iff (h : r.beforeType.head? = some ' ') :
    (Leading.afterReturnType? r.line).getD (Leading.afterFirstSpace r.line) =
        byteLength r.untilName ↔
      (∃ c, r.signature.beforeName = [c] ∧ c.utf8Size = 1) ∧
        ∃ word start, Leading.firstReturnType? r.line = some word ∧
          before? word.toList r.line = some start ∧ start ++ word.toList = r.untilType := by
  constructor
  · intro hoffset
    cases hafter : Leading.afterReturnType? r.line with
    | none =>
      have hlt := r.afterFirstSpace_lt h
      rw [hafter, Option.getD_none] at hoffset
      omega
    | some offset =>
      obtain ⟨word, start, hfirst, hstart, rfl⟩ := Leading.afterReturnType?_eq_some_iff.mp hafter
      have hlisted : word ∈ Leading.javaReturnTypes := List.mem_of_find?_eq_some hfirst
      rw [hafter, Option.getD_some] at hoffset
      obtain ⟨hone, htype⟩ := r.eq_untilType_of_byteLength (prefix_of_before? hstart)
        (Leading.returnType_characters word hlisted).1
        (fun _ => Leading.isBlank_returnType hlisted) hoffset
      exact ⟨hone, word, start, hfirst, hstart, htype⟩
  · rintro ⟨⟨c, hgap, hc⟩, word, start, hfirst, hstart, htype⟩
    have hafter := Leading.afterReturnType?_eq_some_iff.mpr ⟨word, start, hfirst, hstart, rfl⟩
    rw [hafter, Option.getD_some, htype, untilName, hgap, byteLength_append, byteLength_cons, hc]
    rfl

end Strict.JavaReading

/-- Where the strict style declares a method, its line has parts. The leading style gives the
method the same name exactly if a space follows the modifier, a single blank of one byte divides
the type from the name, the parameters follow at once, and the first listed return type that
occurs in the line does so first where the type ends. -/
theorem leading_agrees_iff {line name : List Char}
    (h : Profile.declaredName? ⟨.java, .strict⟩ line = some name) :
    (∃ r : Strict.JavaReading, r.line = line) ∧
      ∀ r : Strict.JavaReading, r.line = line → r.name = name ∧
        (Profile.declaredName? ⟨.java, .leading⟩ line = some name ↔
          r.beforeType.head? = some ' ' ∧
            (∃ c, r.signature.beforeName = [c] ∧ c.utf8Size = 1) ∧
            r.signature.afterName = [] ∧
            ∃ word start, Leading.firstReturnType? line = some word ∧
              before? word.toList line = some start ∧
              start ++ word.toList = r.modifier ++ (r.beforeType ++ r.typeName)) := by
  obtain ⟨r, hr, -⟩ := Strict.javaName?_eq_some_iff.mp h
  refine ⟨⟨r, hr⟩, ?_⟩
  rintro r rfl
  have hname : Strict.javaName? r.line = some r.name :=
    Strict.javaName?_eq_some_iff.mpr ⟨r, rfl, rfl⟩
  obtain rfl : r.name = name := Option.some.inj (hname.symm.trans h)
  refine ⟨rfl, ?_⟩
  change Leading.javaName? r.line = some r.name ↔ _
  rw [Leading.javaName?, Option.ite_none_right_eq_some, r.opens_iff, r.nameFrom?_line_iff]
  constructor
  · rintro ⟨hspace, hafter, hoffset⟩
    obtain ⟨hone, htype⟩ := (r.offset_eq_iff hspace).mp hoffset
    exact ⟨hspace, hone, hafter, htype⟩
  · rintro ⟨hspace, hone, hafter, htype⟩
    exact ⟨hspace, hafter, (r.offset_eq_iff hspace).mpr ⟨hone, htype⟩⟩

/-- A declaration with a tab before its name and another return type in its parameters. -/
def tabbed : Strict.JavaReading where
  modifier := "private".toList
  beforeType := [' ']
  typeName := "int".toList
  signature :=
    { beforeName := ['\t']
      name := "length".toList
      afterName := []
      parameters := "long[] xs".toList
      beforeBody := [' ']
      beforeName_ne_nil := by decide
      isBlank_beforeName := List.all_eq_true.mp (by decide)
      name_ne_nil := by decide
      isAsciiWord_name := List.all_eq_true.mp (by decide)
      isBlank_afterName := List.all_eq_true.mp (by decide)
      lineFeed_not_mem_parameters := by decide
      isBlank_beforeBody := List.all_eq_true.mp (by decide) }
  modifier_mem := by decide
  beforeType_ne_nil := by decide
  isBlank_beforeType := List.all_eq_true.mp (by decide)
  typeName_ne_nil := by decide
  isAsciiWord_typeName := List.all_eq_true.mp (by decide)

theorem leading_agrees_on_tabbed :
    Profile.declaredName? ⟨.java, .strict⟩ tabbed.line = some "length".toList ∧
      Profile.declaredName? ⟨.java, .leading⟩ tabbed.line = some "length".toList := by
  have hstrict : Profile.declaredName? ⟨.java, .strict⟩ tabbed.line = some "length".toList := by
    decide
  obtain ⟨-, hagree⟩ := (leading_agrees_iff hstrict).2 tabbed rfl
  refine ⟨hstrict, hagree.mpr ⟨by decide, ⟨'\t', by decide, by decide⟩, by decide, ?_⟩⟩
  exact ⟨"int", "private ".toList, by decide, by decide, by decide⟩

end MethodSurvey.Declaration
