import MethodSurvey.Proofs.Json.Numbers
import MethodSurvey.Proofs.Json.Strings

/-! The compact form of a value is read as that value, and has no control characters. -/

namespace MethodSurvey.Json

open Text (Stops)
open Toml (Reader)
open Toml.Reader

@[elab_as_elim]
theorem induction {P : Json → Prop} (null : P null) (natural : ∀ n, P (natural n))
    (real : ∀ x, P (real x)) (text : ∀ s, P (text s))
    (array : ∀ items, (∀ item ∈ items, P item) → P (array items))
    (object : ∀ fields, (∀ field ∈ fields, P field.2) → P (object fields)) (j : Json) : P j :=
  @Json.rec P (fun items => ∀ item ∈ items, P item) (fun fields => ∀ field ∈ fields, P field.2)
    (fun field => P field.2) null natural real text array object (by simp)
    (fun _ _ hitem hitems => List.forall_mem_cons.mpr ⟨hitem, hitems⟩) (by simp)
    (fun _ _ hfield hfields => List.forall_mem_cons.mpr ⟨hfield, hfields⟩) (fun _ _ h => h) j

mutual

/-- What a value says. -/
def term : Json → Term
  | null => .null
  | natural n => .natural n
  | real x => if x.isFinite then .number (Lexeme.real x).value else .null
  | text s => .text s
  | array items => .array (terms items)
  | object fields => .object (fieldTerms fields)

def terms : List Json → List Term
  | [] => []
  | item :: items => item.term :: terms items

def fieldTerms : List (String × Json) → List (String × Term)
  | [] => []
  | (key, value) :: fields => (key, value.term) :: fieldTerms fields

end

theorem terms_eq_map (items : List Json) : terms items = items.map term := by
  induction items with
  | nil => rfl
  | cons item items ih => rw [terms, ih, List.map_cons]

theorem fieldTerms_eq_map (fields : List (String × Json)) :
    fieldTerms fields = fields.map fun field => (field.1, field.2.term) := by
  induction fields with
  | nil => rfl
  | cons field fields ih => rw [fieldTerms, ih, List.map_cons]

/-! ### The compact form -/

variable {α β : Type} {s t : List Char}

/-- The texts of some items with commas between them. -/
def separated (write : β → List Char) : List β → List Char
  | [] => []
  | item :: items => write item ++ items.flatMap fun item => ',' :: write item

def compactField (field : String × Json) : List Char := quote field.1 ++ ':' :: compact field.2

theorem compactItems_eq_separated (items : List Json) :
    compactItems items = separated compact items := by
  induction items with
  | nil => rfl
  | cons item items ih =>
    cases items with
    | nil => simp [compactItems, separated]
    | cons next items =>
      rw [compactItems, ih]
      · simp [separated]
      · simp

theorem compactFields_eq_separated (fields : List (String × Json)) :
    compactFields fields = separated compactField fields := by
  induction fields with
  | nil => rfl
  | cons field fields ih =>
    cases fields with
    | nil => simp [compactFields, separated, compactField]
    | cons next fields =>
      rw [compactFields, ih]
      · simp [separated, compactField]
      · simp

theorem mem_separated {write : β → List Char} {items : List β} {c : Char}
    (hc : c ∈ separated write items) : c = ',' ∨ ∃ item ∈ items, c ∈ write item := by
  cases items with
  | nil => cases hc
  | cons first items =>
    rcases List.mem_append.mp hc with hfirst | hrest
    · exact .inr ⟨first, List.mem_cons_self, hfirst⟩
    · obtain ⟨item, hitem, hc⟩ := List.mem_flatMap.mp hrest
      rcases List.mem_cons.mp hc with hcomma | hc
      · exact .inl hcomma
      · exact .inr ⟨item, List.mem_cons_of_mem first hitem, hc⟩

theorem length_le_length_separated (write : β → List Char) {items : List β} {item : β}
    (h : item ∈ items) : (write item).length ≤ (separated write items).length := by
  cases items with
  | nil => cases h
  | cons first items =>
    rw [separated, List.length_append]
    rcases List.mem_cons.mp h with rfl | h
    · exact Nat.le_add_right _ _
    · obtain ⟨before, after, rfl⟩ := List.append_of_mem h
      simp only [List.flatMap_append, List.flatMap_cons, List.length_append, List.length_cons]
      omega

theorem printable_separated {write : β → List Char} {items : List β}
    (h : ∀ item ∈ items, ∀ c ∈ write item, 0x20 ≤ c.toNat) :
    ∀ c ∈ separated write items, 0x20 ≤ c.toNat := by
  intro c hc
  rcases mem_separated hc with rfl | ⟨item, hitem, hc⟩
  · decide
  · exact h item hitem c hc

/-- No control character stands in the compact form of a value. -/
theorem printable_compact (j : Json) : ∀ c ∈ compact j, 0x20 ≤ c.toNat := by
  induction j using Json.induction with
  | null => simp [compact]
  | natural n =>
    rw [compact, ← Lexeme.text_natural]
    exact (Lexeme.natural n).printable_text
  | real x =>
    rw [compact, ← Lexeme.text_real]
    split_ifs
    · exact (Lexeme.real x).printable_text
    · simp
  | text s => exact printable_quote s
  | array items ih =>
    rw [compact, compactItems_eq_separated, List.forall_mem_append]
    exact ⟨List.forall_mem_cons.mpr ⟨by decide, printable_separated ih⟩, by simp⟩
  | object fields ih =>
    have hfields : ∀ field ∈ fields, ∀ c ∈ compactField field, 0x20 ≤ c.toNat := by
      intro field hfield
      rw [compactField, List.forall_mem_append]
      exact ⟨printable_quote _, List.forall_mem_cons.mpr ⟨by decide, ih field hfield⟩⟩
    rw [compact, compactFields_eq_separated, List.forall_mem_append]
    exact ⟨List.forall_mem_cons.mpr ⟨by decide, printable_separated hfields⟩, by simp⟩

/-! ### Reading it back -/

theorem skipSpaces_run (s : List Char) :
    Grammar.skipSpaces s = some ((), s.dropWhile Grammar.isSpace) := rfl

theorem skipSpaces_of_stops (hs : Stops Grammar.isSpace s) :
    Grammar.skipSpaces s = some ((), s) := by
  rw [skipSpaces_run, Text.dropWhile_eq_self_of_stops hs]

theorem spaced_run {r : Reader α} {a : α} (hs : Stops Grammar.isSpace s)
    (hr : r s = some (a, t)) :
    Grammar.spaced r s = some (a, t.dropWhile Grammar.isSpace) := by
  simp only [Grammar.spaced, bind_run, skipSpaces_of_stops hs, Option.bind_some, hr,
    skipSpaces_run, pure_run]

/-- No number and no blanks go on here. -/
def Closed (s : List Char) : Prop := Stops isNumeric s ∧ Stops Grammar.isSpace s

theorem closed_cons {c : Char} (hnumeric : isNumeric c = false)
    (hspace : Grammar.isSpace c = false) : Closed (c :: s) :=
  ⟨Text.stops_cons hnumeric, Text.stops_cons hspace⟩

theorem spaced_closed {r : Reader α} {a : α} (hs : Stops Grammar.isSpace s)
    (hr : r s = some (a, t)) (ht : Closed t) : Grammar.spaced r s = some (a, t) := by
  rw [spaced_run hs hr, Text.dropWhile_eq_self_of_stops ht.2]

theorem collect_another {item : Reader α} {write : β → List Char} {value : β → α}
    {items : List β} {close : Char} (hclosed : Closed (close :: s)) (hcomma : ',' ≠ close)
    (hitem : ∀ b ∈ items, ∀ u, Closed u → item (write b ++ u) = some (value b, u)) :
    collect (Grammar.another? item)
        ((items.flatMap fun item => ',' :: write item) ++ close :: s) =
      some (items.map value, close :: s) := by
  refine collect_flatMap (P := Closed) ?_ (fun _ _ _ => closed_cons (by decide) (by decide))
    (fun _ _ => List.cons_ne_nil _ _) hclosed ?_
  · intro b hb u hu
    simp only [List.cons_append, Grammar.another?, bind_run, accept_cons, Option.bind_some, if_true,
      hitem b hb u hu, pure_run]
  · simp only [Grammar.another?, bind_run, accept_of_head_ne hcomma, Option.bind_some,
      Bool.false_eq_true, if_false, pure_run]

theorem sequence_separated {item : Reader α} {write : β → List Char} {value : β → α}
    {items : List β} (close : Char) (hnumeric : isNumeric close = false)
    (hspace : Grammar.isSpace close = false) (hcomma : ',' ≠ close)
    (hitem : ∀ b ∈ items, ∀ u, Closed u → item (write b ++ u) = some (value b, u))
    (hwrite : ∀ b ∈ items, ∃ c u, write b = c :: u ∧ close ≠ c ∧ Grammar.isSpace c = false) :
    Grammar.sequence close item (separated write items ++ close :: s) =
      some (items.map value, s) := by
  have hclosed : Closed (close :: s) := closed_cons hnumeric hspace
  cases items with
  | nil =>
    simp only [separated, List.nil_append, Grammar.sequence, bind_run,
      skipSpaces_of_stops hclosed.2, Option.bind_some, accept_cons, if_true, pure_run, List.map_nil]
  | cons first items =>
    obtain ⟨c, u, hfirst, hc, hcspace⟩ := hwrite first List.mem_cons_self
    have hbegin (v : List Char) : Stops Grammar.isSpace (write first ++ v) := by
      rw [hfirst]
      exact Text.stops_cons hcspace
    have hopen (v : List Char) :
        accept [close] (write first ++ v) = some (false, write first ++ v) := by
      rw [hfirst]
      exact accept_of_head_ne hc
    have hrest : Closed ((items.flatMap fun item => ',' :: write item) ++ close :: s) := by
      cases items with
      | nil => exact hclosed
      | cons next items => exact closed_cons (by decide) (by decide)
    have hothers := collect_another hclosed hcomma fun b hb =>
      hitem b (List.mem_cons_of_mem first hb)
    simp only [separated, List.append_assoc, Grammar.sequence, bind_run,
      skipSpaces_of_stops (hbegin _), hopen, Option.bind_some, Bool.false_eq_true, if_false,
      hitem first List.mem_cons_self _ hrest, hothers, expect_cons, pure_run, List.map_cons]

variable {depth : Nat}

theorem value_null (s : List Char) :
    Grammar.value (depth + 1) (['n', 'u', 'l', 'l'] ++ s) = some (.null, s) := by
  simp only [Grammar.value, bind_run, accept_append, Option.bind_some, if_true, pure_run]

/-- A value that does not begin with a letter is told by its first character. -/
theorem value_cons {c : Char} (hn : 'n' ≠ c) (ht : 't' ≠ c) (hf : 'f' ≠ c) (s : List Char) :
    Grammar.value (depth + 1) (c :: s) =
      if c = '[' then
        (Term.array <$> Grammar.sequence ']' (Grammar.spaced (Grammar.value depth))) s
      else if c = '\x7b' then
        (Term.object <$>
          Grammar.sequence '\x7d' (Grammar.field (Grammar.spaced (Grammar.value depth)))) s
      else if c = '\x22' then (Term.text <$> Grammar.string) (c :: s)
      else (Term.number <$> Grammar.number) (c :: s) := by
  have hnext : next? (c :: s) = some (some c, c :: s) := rfl
  simp only [map_eq_pure_bind, Grammar.value, bind_run, accept_of_head_ne hn, accept_of_head_ne ht,
    accept_of_head_ne hf, Option.bind_some, Bool.false_eq_true, if_false]
  split_ifs with harray hobject htext
  · subst harray
    simp only [accept_cons, Option.bind_some, if_true, bind_run]
  · subst hobject
    simp only [accept_of_head_ne (Ne.symm harray), accept_cons, Option.bind_some,
      Bool.false_eq_true, if_false, if_true, bind_run]
  · subst htext
    simp only [accept_of_head_ne (Ne.symm harray), accept_of_head_ne (Ne.symm hobject), hnext,
      Option.bind_some, Bool.false_eq_true, if_false, if_true, bind_run]
  · simp only [accept_of_head_ne (Ne.symm harray), accept_of_head_ne (Ne.symm hobject), hnext,
      Option.bind_some, Bool.false_eq_true, if_false, bind_run, Option.some.injEq, htext]

theorem value_quote (t : String) (s : List Char) :
    Grammar.value (depth + 1) (quote t ++ s) = some (.text t, s) := by
  have hstring := string_quote t s
  simp only [quote, List.cons_append] at hstring ⊢
  rw [value_cons (by decide) (by decide) (by decide), if_neg (by decide), if_neg (by decide),
    if_pos rfl, map_run, hstring]
  rfl

theorem value_lexeme (l : Lexeme) (hs : Stops isNumeric s) :
    Grammar.value (depth + 1) (l.text ++ s) = some (.number l.value, s) := by
  obtain ⟨c, t, htext, hc⟩ := l.exists_head_text
  have hnumber := number_text l hs
  rw [htext, List.cons_append] at hnumber ⊢
  rw [value_cons (hc 'n' (by decide)) (hc 't' (by decide)) (hc 'f' (by decide)),
    if_neg (hc '[' (by decide)).symm, if_neg (hc '\x7b' (by decide)).symm,
    if_neg (hc '\x22' (by decide)).symm, map_run, hnumber]
  rfl

theorem exists_head_compact (j : Json) :
    ∃ c t, compact j = c :: t ∧ ']' ≠ c ∧ Grammar.isSpace c = false := by
  have hlexeme (l : Lexeme) : ∃ c t, l.text = c :: t ∧ ']' ≠ c ∧ Grammar.isSpace c = false := by
    obtain ⟨c, t, htext, hc⟩ := l.exists_head_text
    refine ⟨c, t, htext, hc ']' (by decide), ?_⟩
    simp only [Grammar.isSpace, Bool.or_eq_false_iff, beq_eq_false_iff_ne]
    exact ⟨⟨⟨(hc ' ' (by decide)).symm, (hc '\t' (by decide)).symm⟩, (hc '\n' (by decide)).symm⟩,
      (hc '\r' (by decide)).symm⟩
  cases j with
  | null => exact ⟨_, _, rfl, by decide, by decide⟩
  | natural n =>
    rw [compact, ← Lexeme.text_natural]
    exact hlexeme (Lexeme.natural n)
  | real x =>
    rw [compact, ← Lexeme.text_real]
    split_ifs
    · exact hlexeme (Lexeme.real x)
    · exact ⟨_, _, rfl, by decide, by decide⟩
  | text s => exact ⟨_, _, rfl, by decide, by decide⟩
  | array items => exact ⟨_, _, rfl, by decide, by decide⟩
  | object fields => exact ⟨_, _, rfl, by decide, by decide⟩

theorem exists_succ_of_compact (j : Json) (h : (compact j).length ≤ depth) :
    ∃ d, depth = d + 1 := by
  obtain ⟨c, t, htext, _⟩ := exists_head_compact j
  rw [htext, List.length_cons] at h
  exact Nat.exists_eq_succ_of_ne_zero (Nat.ne_zero_of_lt h)

theorem stops_compact (j : Json) (s : List Char) : Stops Grammar.isSpace (compact j ++ s) := by
  obtain ⟨c, t, htext, _, hc⟩ := exists_head_compact j
  rw [htext]
  exact Text.stops_cons hc

theorem stops_quote (t : String) (s : List Char) : Stops Grammar.isSpace (quote t ++ s) :=
  Text.stops_cons (by decide)

theorem field_compactField {item : Reader Term} {field : String × Json} {value : Term}
    (hitem : item (compact field.2 ++ s) = some (value, s)) :
    Grammar.field item (compactField field ++ s) = some ((field.1, value), s) := by
  have hkey := spaced_closed (stops_quote field.1 _)
    (string_quote field.1 (':' :: (compact field.2 ++ s))) (closed_cons (by decide) (by decide))
  simp only [Grammar.field, compactField, List.append_assoc, List.cons_append, bind_run, hkey,
    Option.bind_some, expect_cons, hitem, pure_run]

theorem value_array {items : List Json}
    (hitem : ∀ item ∈ items, ∀ u, Closed u →
      Grammar.spaced (Grammar.value depth) (compact item ++ u) = some (item.term, u)) :
    Grammar.value (depth + 1) (compact (array items) ++ s) = some ((array items).term, s) := by
  have hsequence := sequence_separated (s := s) ']' (by decide) (by decide) (by decide) hitem
    fun item _ => exists_head_compact item
  simp only [compact, compactItems_eq_separated, List.cons_append, List.append_assoc,
    List.nil_append]
  rw [value_cons (by decide) (by decide) (by decide), if_pos rfl, map_run, hsequence, term,
    terms_eq_map]
  rfl

theorem value_object {fields : List (String × Json)}
    (hfield : ∀ field ∈ fields, ∀ u, Closed u →
      Grammar.field (Grammar.spaced (Grammar.value depth)) (compactField field ++ u) =
        some ((field.1, field.2.term), u)) :
    Grammar.value (depth + 1) (compact (object fields) ++ s) = some ((object fields).term, s) := by
  have hsequence := sequence_separated (s := s) '\x7d' (by decide) (by decide) (by decide) hfield
    fun field _ => ⟨'\x22', _, rfl, by decide, by decide⟩
  simp only [compact, compactFields_eq_separated, List.cons_append, List.append_assoc,
    List.nil_append]
  rw [value_cons (by decide) (by decide) (by decide), if_neg (by decide), if_pos rfl, map_run,
    hsequence, term, fieldTerms_eq_map]
  rfl

/-- The compact form of a value is read as what the value says, with its length as the
number of brackets to reckon with. -/
theorem value_compact (j : Json) (hdepth : (compact j).length ≤ depth) (hs : Stops isNumeric s) :
    Grammar.value depth (compact j ++ s) = some (j.term, s) := by
  induction j using Json.induction generalizing depth s with
  | null =>
    obtain ⟨depth, rfl⟩ := exists_succ_of_compact _ hdepth
    exact value_null s
  | natural n =>
    obtain ⟨depth, rfl⟩ := exists_succ_of_compact _ hdepth
    rw [compact, ← Lexeme.text_natural, value_lexeme _ hs, Lexeme.value_natural]
    rfl
  | real x =>
    obtain ⟨depth, rfl⟩ := exists_succ_of_compact _ hdepth
    rw [compact, ← Lexeme.text_real, term]
    split_ifs
    · exact value_lexeme _ hs
    · exact value_null s
  | text t =>
    obtain ⟨depth, rfl⟩ := exists_succ_of_compact _ hdepth
    exact value_quote t s
  -- What is inside brackets is shorter by two characters, so one bracket less is enough for it.
  | array items ih =>
    obtain ⟨depth, rfl⟩ := exists_succ_of_compact _ hdepth
    simp only [compact, compactItems_eq_separated, List.length_append, List.length_cons] at hdepth
    refine value_array fun item hmem u hu => ?_
    have hlength := length_le_length_separated compact hmem
    exact spaced_closed (stops_compact item u) (ih item hmem (by omega) hu.1) hu
  | object fields ih =>
    obtain ⟨depth, rfl⟩ := exists_succ_of_compact _ hdepth
    simp only [compact, compactFields_eq_separated, List.length_append, List.length_cons] at hdepth
    refine value_object fun field hmem u hu => ?_
    have hlength := length_le_length_separated compactField hmem
    simp only [compactField, List.length_append, List.length_cons] at hlength
    exact field_compactField
      (spaced_closed (stops_compact field.2 u) (ih field hmem (by omega) hu.1) hu)

theorem not_isNumeric_of_isSpace {c : Char} (h : Grammar.isSpace c = true) :
    isNumeric c = false := by
  simp only [Grammar.isSpace, Bool.or_eq_true, beq_iff_eq] at h
  rcases h with ((rfl | rfl) | rfl) | rfl <;> decide

/-- A text that is the compact form of a value, with any blanks behind it, says that value
and nothing else. -/
theorem read?_compact (j : Json) {spaces : List Char}
    (hspaces : ∀ c ∈ spaces, Grammar.isSpace c = true) :
    read? (compact j ++ spaces) = some j.term := by
  have hnumeric : Stops isNumeric spaces := by
    cases spaces with
    | nil => exact Text.stops_nil
    | cons c spaces => exact Text.stops_cons (not_isNumeric_of_isSpace (hspaces c (by simp)))
  have hvalue : Grammar.value ((compact j ++ spaces).length + 1) (compact j ++ spaces) =
      some (j.term, spaces) :=
    value_compact j (by simp only [List.length_append]; omega) hnumeric
  have hspaced := spaced_run (stops_compact j spaces) hvalue
  rw [List.dropWhile_eq_nil_iff.mpr hspaces] at hspaced
  simp only [read?, hspaced]

end MethodSurvey.Json
