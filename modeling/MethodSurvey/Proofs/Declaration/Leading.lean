import MethodSurvey.Declaration
import MethodSurvey.Proofs.Text.Occurrence

/-! Names in the leading style. A name is found exactly if the offset is where it begins. In
Java the offset is set by the first listed return type that occurs anywhere in the line, so a
method is named after its return type unless a type that is looked for before occurs as well. -/

namespace MethodSurvey.Declaration.Leading

open Text

theorem nameFrom?_eq_some_iff {offset : Nat} {span rest name : List Char} (h : '(' ∉ span) :
    nameFrom? offset (span ++ '(' :: rest) = some name ↔
      name ≠ [] ∧ ∃ start, span = start ++ name ∧ byteLength start = offset := by
  have hspan : before? ['('] (span ++ '(' :: rest) = some span := before?_singleton h
  simp only [nameFrom?, hspan, Option.bind_eq_bind, Option.bind_some, Option.bind_eq_some_iff,
    dropBytes?_eq_some_iff, Option.ite_none_left_eq_some, List.isEmpty_iff, Option.some.injEq]
  constructor
  · rintro ⟨t, ht, hne, rfl⟩
    exact ⟨hne, ht⟩
  · rintro ⟨hne, ht⟩
    exact ⟨name, ht, hne, rfl⟩

theorem nameFrom?_eq_some_self_iff {offset : Nat} {start name rest : List Char}
    (h : '(' ∉ start ++ name) (hne : name ≠ []) :
    nameFrom? offset (start ++ name ++ '(' :: rest) = some name ↔ offset = byteLength start := by
  rw [nameFrom?_eq_some_iff h]
  constructor
  · rintro ⟨-, start', hs, rfl⟩
    rw [List.append_cancel_right hs]
  · rintro rfl
    exact ⟨hne, start, rfl, rfl⟩

/-- A name is a part of the line that the first parenthesis ends. -/
theorem nameFrom?_iff {offset : Nat} {line name : List Char} :
    nameFrom? offset line = some name ↔ ∃ start rest, line = start ++ name ++ '(' :: rest ∧
      '(' ∉ start ++ name ∧ name ≠ [] ∧ byteLength start = offset := by
  constructor
  · intro h
    by_cases hparen : '(' ∈ line
    · obtain ⟨span, rest, rfl, hspan⟩ := List.eq_append_cons_of_mem hparen
      obtain ⟨hne, start, rfl, hoffset⟩ := (nameFrom?_eq_some_iff hspan).mp h
      exact ⟨start, rest, rfl, hspan, hne, hoffset⟩
    · simp [nameFrom?, before?_singleton_of_not_mem hparen] at h
  · rintro ⟨start, rest, rfl, hspan, hne, rfl⟩
    exact (nameFrom?_eq_some_self_iff hspan hne).mpr rfl

theorem afterFirstSpace_append {start : List Char} (h : ' ' ∉ start) (rest : List Char) :
    afterFirstSpace (start ++ ' ' :: rest) = byteLength (start ++ [' ']) := by
  rw [afterFirstSpace, before?_singleton h, byteLength_append]
  rfl

theorem afterFirstSpace_of_not_mem {line : List Char} (h : ' ' ∉ line) :
    afterFirstSpace line = 0 := by
  rw [afterFirstSpace, before?_singleton_of_not_mem h]

/-- The first listed return type that occurs in the line. -/
def firstReturnType? (line : List Char) : Option String :=
  javaReturnTypes.find? fun word => contains word.toList line

theorem contains_of_firstReturnType? {word : String} {line : List Char}
    (h : firstReturnType? line = some word) : contains word.toList line = true := by
  simpa using List.find?_some h

theorem afterReturnType?_eq_some_iff {offset : Nat} {line : List Char} :
    afterReturnType? line = some offset ↔ ∃ word start, firstReturnType? line = some word ∧
      before? word.toList line = some start ∧
      offset = byteLength (start ++ word.toList) + 1 := by
  simp only [afterReturnType?, List.findSome?_eq_some_iff, firstReturnType?,
    List.find?_eq_some_iff_append, Option.map_eq_some_iff, Option.map_eq_none_iff, contains,
    Option.isSome_iff_exists, Bool.not_eq_true', Option.isSome_eq_false_iff, Option.isNone_iff_eq_none,
    byteLength_append]
  constructor
  · rintro ⟨listed, word, others, hl, ⟨start, hstart, rfl⟩, hnone⟩
    exact ⟨word, start, ⟨⟨start, hstart⟩, listed, others, hl, hnone⟩, hstart, rfl⟩
  · rintro ⟨word, start, ⟨-, listed, others, hl, hnone⟩, hstart, rfl⟩
    exact ⟨listed, word, others, hl, ⟨start, hstart, rfl⟩, hnone⟩

/-- A modifier opens a declaration together with the space after it. -/
theorem opens_iff {modifier : List Char} (h : modifier ∈ Strict.javaModifiers.map String.toList)
    (rest : List Char) :
    javaModifiers.any (·.toList.isPrefixOf (modifier ++ rest)) = true ↔ rest.head? = some ' ' := by
  simp only [Strict.javaModifiers, List.map_cons, List.map_nil, List.mem_cons, List.not_mem_nil,
    or_false] at h
  cases rest with
  | nil => rcases h with rfl | rfl | rfl <;> simp [javaModifiers, List.isPrefixOf]
  | cons c rest =>
    rw [List.head?_cons, Option.some.injEq, eq_comm (a := c)]
    rcases h with rfl | rfl | rfl <;> simp [javaModifiers, List.isPrefixOf]

theorem javaName?_eq_some_self_iff {start name : List Char} (rest : List Char)
    (h : '(' ∉ start ++ name) (hne : name ≠ []) :
    javaName? (start ++ name ++ '(' :: rest) = some name ↔
      javaModifiers.any (·.toList.isPrefixOf (start ++ name ++ '(' :: rest)) = true ∧
        (afterReturnType? (start ++ name ++ '(' :: rest)).getD
          (afterFirstSpace (start ++ name ++ '(' :: rest)) = byteLength start := by
  rw [javaName?, Option.ite_none_right_eq_some, nameFrom?_eq_some_self_iff h hne]

theorem returnType_characters : ∀ word ∈ javaReturnTypes,
    word.toList ≠ [] ∧ ' ' ∉ word.toList ∧ '(' ∉ word.toList := by
  decide

theorem isBlank_returnType {word : String} (hw : word ∈ javaReturnTypes) {c : Char}
    (hc : c ∈ word.toList) : isBlank c = false := by
  have hall : javaReturnTypes.all (fun w => w.toList.all (!isBlank ·)) = true := by decide
  simpa using List.all_eq_true.mp (List.all_eq_true.mp hall word hw) c hc

theorem modifier_characters : ∀ modifier ∈ Strict.javaModifiers.map String.toList,
    ' ' ∉ modifier ∧ '(' ∉ modifier := by
  decide

theorem contains_modifier : ∀ modifier ∈ Strict.javaModifiers.map String.toList,
    ∀ word ∈ javaReturnTypes, contains word.toList modifier = false := by
  decide

/-- The return types that are looked for before this one. -/
def earlierReturnTypes (word : String) : List String :=
  javaReturnTypes.takeWhile (· ≠ word)

theorem javaReturnTypes_eq_append : ∀ word ∈ javaReturnTypes, javaReturnTypes =
    earlierReturnTypes word ++ word :: javaReturnTypes.drop ((earlierReturnTypes word).length + 1) := by
  decide

/-- No other type than that of its elements occurs in the name of a type of arrays. -/
theorem contains_earlier : ∀ word ∈ javaReturnTypes, '[' ∉ word.toList →
    ∀ earlier ∈ earlierReturnTypes word, contains earlier.toList word.toList = false := by
  decide

theorem firstReturnType?_of_earlier_absent {word : String} {line : List Char}
    (hw : word ∈ javaReturnTypes) (hc : contains word.toList line = true)
    (h : ∀ earlier ∈ earlierReturnTypes word, contains earlier.toList line = false) :
    firstReturnType? line = some word := by
  rw [firstReturnType?, List.find?_eq_some_iff_append]
  exact ⟨hc, _, _, javaReturnTypes_eq_append word hw, fun earlier he => by simp [h earlier he]⟩

theorem exists_firstReturnType?_of_earlier {word earlier : String} {line : List Char}
    (hw : word ∈ javaReturnTypes) (he : earlier ∈ earlierReturnTypes word)
    (hc : contains earlier.toList line = true) :
    ∃ first ∈ earlierReturnTypes word, firstReturnType? line = some first := by
  have hsome : ((earlierReturnTypes word).find? fun w => contains w.toList line).isSome = true :=
    List.find?_isSome.mpr ⟨earlier, he, hc⟩
  obtain ⟨first, hfirst⟩ := Option.isSome_iff_exists.mp hsome
  refine ⟨first, List.mem_of_find?_eq_some hfirst, ?_⟩
  rw [firstReturnType?, javaReturnTypes_eq_append word hw, List.find?_append, hfirst]
  rfl

/-- The line that declares a method with a modifier and a return type, a space after each. -/
def typedLine (modifier returnType name rest : List Char) : List Char :=
  modifier ++ ' ' :: (returnType ++ ' ' :: (name ++ '(' :: rest))

section

variable {modifier name : List Char} {word : String} (rest : List Char)

theorem typedLine_eq_append (modifier returnType name rest : List Char) :
    typedLine modifier returnType name rest =
      (modifier ++ ' ' :: (returnType ++ [' '])) ++ name ++ '(' :: rest := by
  simp [typedLine]

/-- A listed return type that stands in its place is found there. -/
theorem before?_typedLine (name : List Char)
    (hm : modifier ∈ Strict.javaModifiers.map String.toList) (hw : word ∈ javaReturnTypes) :
    before? word.toList (typedLine modifier word.toList name rest) = some (modifier ++ [' ']) := by
  have hmodifier := contains_modifier modifier hm word hw
  rw [typedLine, before?_append_cons (returnType_characters word hw).2.1
    (not_infix_of_contains hmodifier), before?_of_begins (List.prefix_append _ _)]
  rfl

/-- Another one is found behind the return type. -/
theorem before?_typedLine_of_earlier {earlier : String}
    (hm : modifier ∈ Strict.javaModifiers.map String.toList) (hw : word ∈ javaReturnTypes)
    (hplain : '[' ∉ word.toList) (he : earlier ∈ earlierReturnTypes word) :
    before? earlier.toList (typedLine modifier word.toList name rest) =
      (before? earlier.toList (name ++ '(' :: rest)).map
        fun start => modifier ++ ' ' :: (word.toList ++ ' ' :: start) := by
  have hlisted : earlier ∈ javaReturnTypes := (List.takeWhile_sublist _).subset he
  have hspace := (returnType_characters earlier hlisted).2.1
  have hmodifier := contains_modifier modifier hm earlier hlisted
  have hword := contains_earlier word hw hplain earlier he
  rw [typedLine, before?_append_cons hspace (not_infix_of_contains hmodifier),
    before?_append_cons hspace (not_infix_of_contains hword), Option.map_map]
  rfl

theorem javaName?_typedLine_iff (hm : modifier ∈ Strict.javaModifiers.map String.toList)
    (hw : word ∈ javaReturnTypes) (hne : name ≠ []) (hparen : '(' ∉ name) :
    javaName? (typedLine modifier word.toList name rest) = some name ↔
      (afterReturnType? (typedLine modifier word.toList name rest)).getD
        (afterFirstSpace (typedLine modifier word.toList name rest)) =
        byteLength (modifier ++ ' ' :: (word.toList ++ [' '])) := by
  have hspan : '(' ∉ (modifier ++ ' ' :: (word.toList ++ [' '])) ++ name := by
    have hmodifier := (modifier_characters modifier hm).2
    have hword := (returnType_characters word hw).2.2
    simp [hmodifier, hword, hparen]
  have hopens := (opens_iff hm (' ' :: (word.toList ++ ' ' :: (name ++ '(' :: rest)))).mpr rfl
  have hname := javaName?_eq_some_self_iff rest hspan hne
  rw [← typedLine_eq_append] at hname
  rw [hname]
  exact and_iff_right hopens

/-- A method is named by what stands after its return type where no return type that is looked
for before that one occurs in the line; if the type is not one of arrays, only there. -/
theorem name_of_typedLine (hm : modifier ∈ Strict.javaModifiers.map String.toList)
    (hw : word ∈ javaReturnTypes) (hne : name ≠ []) (hparen : '(' ∉ name) :
    let line := typedLine modifier word.toList name rest
    let clear := ∀ earlier ∈ earlierReturnTypes word, contains earlier.toList line = false
    (clear → Profile.declaredName? ⟨.java, .leading⟩ line = some name) ∧
      ('[' ∉ word.toList → Profile.declaredName? ⟨.java, .leading⟩ line = some name → clear) := by
  intro line clear
  have hname := javaName?_typedLine_iff rest hm hw hne hparen
  have hbefore := before?_typedLine rest name hm hw
  have hspace : ' '.utf8Size = 1 := rfl
  constructor
  · intro h
    have hfirst : firstReturnType? line = some word :=
      firstReturnType?_of_earlier_absent hw (Option.isSome_iff_exists.mpr ⟨_, hbefore⟩) h
    have hoffset := afterReturnType?_eq_some_iff.mpr ⟨word, _, hfirst, hbefore, rfl⟩
    refine hname.mpr ?_
    rw [hoffset, Option.getD_some]
    simp only [byteLength_append, byteLength_cons, byteLength_nil]
    omega
  · intro hplain hdeclared earlier he
    by_contra hc
    obtain ⟨first, hfirst, hfound⟩ :=
      exists_firstReturnType?_of_earlier hw he (Bool.not_eq_false _ ▸ hc)
    obtain ⟨start, hstart⟩ := Option.isSome_iff_exists.mp (contains_of_firstReturnType? hfound)
    have hoffset := afterReturnType?_eq_some_iff.mpr ⟨first, start, hfound, hstart, rfl⟩
    rw [before?_typedLine_of_earlier rest hm hw hplain hfirst, Option.map_eq_some_iff] at hstart
    obtain ⟨skipped, -, rfl⟩ := hstart
    have hlisted : first ∈ javaReturnTypes := (List.takeWhile_sublist _).subset hfirst
    have hpositive := byteLength_pos (returnType_characters first hlisted).1
    have hequal := hname.mp hdeclared
    rw [hoffset, Option.getD_some] at hequal
    simp only [byteLength_append, byteLength_cons, byteLength_nil] at hequal
    omega

end

/-- Only return types that are looked for later occur among the parameters. -/
theorem name_of_join :
    let line := typedLine "protected".toList "char".toList "join".toList "String[] parts) \x7b".toList
    (∀ earlier ∈ earlierReturnTypes "char", contains earlier.toList line = false) ∧
      Profile.declaredName? ⟨.java, .leading⟩ line = some "join".toList := by
  intro line
  have hclear : ∀ earlier ∈ earlierReturnTypes "char", contains earlier.toList line = false := by
    decide
  exact ⟨hclear, (name_of_typedLine _ (by decide) (by decide) (by decide) (by decide)).1 hclear⟩

/-- The name has a return type in it that is looked for before its own one. -/
theorem name_of_print_not_found :
    "public".toList ∈ Strict.javaModifiers.map String.toList ∧ "String" ∈ javaReturnTypes ∧
      "print".toList.all Char.isAlpha = true ∧
      Profile.declaredName? ⟨.java, .leading⟩
        (typedLine "public".toList "String".toList "print".toList ") \x7b".toList) ≠
          some "print".toList := by
  decide

end MethodSurvey.Declaration.Leading
