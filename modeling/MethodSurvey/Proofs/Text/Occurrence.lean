import Mathlib.Data.List.Infix
import MethodSurvey.Text.Occurrence

/-! First occurrences and cuts in bytes. A word without a certain character occurs in a
text on one side of that character, and two beginnings of a text compare as their sizes. -/

namespace MethodSurvey.Text

variable {word s t start : List Char} {c : Char}

theorem before?_of_begins (h : word <+: s) : before? word s = some [] := by
  cases s with
  | nil => simp [before?, List.prefix_nil.mp h]
  | cons a s => rw [before?, if_pos (List.isPrefixOf_iff_prefix.mpr h)]

theorem before?_cons_of_not_begins {a : Char} (h : ¬ word <+: a :: s) :
    before? word (a :: s) = (before? word s).map (a :: ·) := by
  rw [before?, if_neg (mt List.isPrefixOf_iff_prefix.mp h)]

theorem prefix_of_before? (h : before? word s = some start) : start ++ word <+: s := by
  induction s generalizing start with
  | nil =>
    by_cases hw : word = []
    · simp_all [before?]
    · simp [before?, hw] at h
  | cons a s ih =>
    by_cases hp : word <+: a :: s
    · obtain rfl : [] = start := by simpa [before?_of_begins hp] using h
      exact hp
    · rw [before?_cons_of_not_begins hp] at h
      obtain ⟨rest, hrest, rfl⟩ := Option.map_eq_some_iff.mp h
      exact (List.prefix_cons_inj a).mpr (ih hrest)

theorem contains_iff : contains word s = true ↔ word <:+: s := by
  constructor
  · intro h
    obtain ⟨start, hstart⟩ := Option.isSome_iff_exists.mp h
    obtain ⟨rest, hrest⟩ := prefix_of_before? hstart
    exact ⟨start, rest, hrest⟩
  · intro h
    induction s with
    | nil => simp [contains, before?_of_begins (List.infix_nil.mp h ▸ List.nil_prefix)]
    | cons a s ih =>
      by_cases hp : word <+: a :: s
      · simp [contains, before?_of_begins hp]
      · have hs : word <:+: s := (List.infix_cons_iff.mp h).resolve_left hp
        rw [contains, before?_cons_of_not_begins hp, Option.isSome_map]
        exact ih hs

theorem not_infix_of_contains (h : contains word s = false) : ¬ word <:+: s :=
  fun hs => Bool.false_ne_true (h.symm.trans (contains_iff.mpr hs))

/-- What a text begins with without the character of a word, that the word has not. -/
theorem prefix_append_cons_iff (hc : c ∉ word) : word <+: s ++ c :: t ↔ word <+: s := by
  constructor
  · intro h
    rcases List.prefix_or_prefix_of_prefix h (List.prefix_append s (c :: t)) with hs | hs
    · exact hs
    · obtain ⟨rest, rfl⟩ := hs
      have hrest : rest <+: c :: t := (List.prefix_append_right_inj s).mp h
      cases rest with
      | nil => simp
      | cons a rest =>
        obtain rfl : a = c := (List.cons_prefix_cons.mp hrest).1
        exact absurd (by simp) hc
  · exact fun h => h.trans (List.prefix_append s (c :: t))

theorem before?_append_cons (hc : c ∉ word) (hs : ¬ word <:+: s) :
    before? word (s ++ c :: t) = (before? word t).map (s ++ c :: ·) := by
  induction s with
  | nil =>
    have hp : ¬ word <+: [] ++ c :: t := fun h =>
      hs ((prefix_append_cons_iff hc).mp h).isInfix
    exact before?_cons_of_not_begins hp
  | cons a s ih =>
    have hp : ¬ word <+: a :: (s ++ c :: t) := fun h =>
      hs ((prefix_append_cons_iff (s := a :: s) hc).mp h).isInfix
    have hs' : ¬ word <:+: s := fun h => hs (h.trans (List.suffix_cons a s).isInfix)
    rw [List.cons_append, before?_cons_of_not_begins hp, ih hs', Option.map_map]
    rfl

/-- A word without a certain character occurs on one side of it. -/
theorem contains_append_cons (hc : c ∉ word) :
    contains word (s ++ c :: t) = (contains word s || contains word t) := by
  by_cases hs : word <:+: s
  · have hline : word <:+: s ++ c :: t := hs.trans (List.prefix_append s (c :: t)).isInfix
    rw [contains_iff.mpr hs, contains_iff.mpr hline, Bool.true_or]
  · have hno : contains word s = false := Bool.eq_false_iff.mpr (mt contains_iff.mp hs)
    rw [hno, Bool.false_or, contains, before?_append_cons hc hs, Option.isSome_map, contains]

/-- No occurrence of the word begins in the text, whatever follows it. -/
def Apart (word start : List Char) : Prop :=
  ∀ rest ∈ start.tails, rest ≠ [] → ¬ word <+: rest ∧ ¬ rest <+: word

instance (word start : List Char) : Decidable (Apart word start) :=
  inferInstanceAs (Decidable (∀ rest ∈ start.tails, rest ≠ [] → ¬ word <+: rest ∧ ¬ rest <+: word))

theorem contains_append_of_apart (h : Apart word start) (s : List Char) :
    contains word (start ++ s) = contains word s := by
  induction start with
  | nil => rfl
  | cons a start ih =>
    obtain ⟨hword, hstart⟩ := h (a :: start) (by simp) (List.cons_ne_nil a start)
    have hp : ¬ word <+: a :: (start ++ s) := by
      intro hp
      rcases List.prefix_or_prefix_of_prefix hp (List.prefix_append (a :: start) s) with hw | hs
      · exact hword hw
      · exact hstart hs
    have hrest : Apart word start := fun rest hr => h rest (by simp [hr])
    rw [List.cons_append, contains, before?_cons_of_not_begins hp, Option.isSome_map]
    exact ih hrest

theorem before?_singleton (h : c ∉ s) : before? [c] (s ++ c :: t) = some s := by
  induction s with
  | nil => exact before?_of_begins ⟨t, rfl⟩
  | cons a s ih =>
    obtain ⟨hne, hs⟩ := not_or.mp (mt List.mem_cons.mpr h)
    have hp : ¬ [c] <+: a :: (s ++ c :: t) := fun hp => hne (List.cons_prefix_cons.mp hp).1
    rw [List.cons_append, before?_cons_of_not_begins hp, ih hs]
    rfl

theorem before?_singleton_of_not_mem (h : c ∉ s) : before? [c] s = none := by
  have hc : contains [c] s = false := Bool.eq_false_iff.mpr fun hc =>
    h ((contains_iff.mp hc).subset (List.mem_singleton_self c))
  rwa [contains, Option.isSome_eq_false_iff, Option.isNone_iff_eq_none] at hc

@[simp]
theorem byteLength_nil : byteLength [] = 0 := rfl

@[simp]
theorem byteLength_cons (c : Char) (s : List Char) :
    byteLength (c :: s) = c.utf8Size + byteLength s := rfl

@[simp]
theorem byteLength_append (s t : List Char) : byteLength (s ++ t) = byteLength s + byteLength t := by
  induction s with
  | nil => simp
  | cons c s ih => simp only [List.cons_append, byteLength_cons, ih, Nat.add_assoc]

theorem byteLength_pos (h : s ≠ []) : 0 < byteLength s := by
  cases s with
  | nil => exact absurd rfl h
  | cons c s =>
    have hc := c.utf8Size_pos
    rw [byteLength_cons]
    omega

theorem eq_nil_of_byteLength_eq_zero (h : byteLength s = 0) : s = [] := by
  by_contra hs
  exact absurd (byteLength_pos hs) (by omega)

theorem exists_singleton_of_byteLength_eq_one (h : byteLength s = 1) :
    ∃ c, s = [c] ∧ c.utf8Size = 1 := by
  cases s with
  | nil => simp at h
  | cons c s =>
    have hc := c.utf8Size_pos
    rw [byteLength_cons] at h
    obtain rfl := eq_nil_of_byteLength_eq_zero (show byteLength s = 0 by omega)
    exact ⟨c, rfl, by omega⟩

theorem prefix_of_byteLength_le {p q : List Char} (hp : p <+: s) (hq : q <+: s)
    (h : byteLength p ≤ byteLength q) : p <+: q := by
  rcases List.prefix_or_prefix_of_prefix hp hq with hpq | hqp
  · exact hpq
  · obtain ⟨rest, rfl⟩ := hqp
    obtain rfl : rest = [] := eq_nil_of_byteLength_eq_zero (by simp at h; omega)
    simp

theorem eq_of_prefix_of_byteLength_eq {p q : List Char} (hp : p <+: s) (hq : q <+: s)
    (h : byteLength p = byteLength q) : p = q := by
  obtain ⟨rest, rfl⟩ := prefix_of_byteLength_le hp hq (Nat.le_of_eq h)
  rw [byteLength_append] at h
  rw [eq_nil_of_byteLength_eq_zero (show byteLength rest = 0 by omega), List.append_nil]

/-- The offset does not lie inside a character, nor beyond the end. -/
def IsBoundary (s : List Char) (offset : Nat) : Prop :=
  ∃ start, start <+: s ∧ byteLength start = offset

instance (s : List Char) (offset : Nat) : Decidable (IsBoundary s offset) :=
  decidable_of_iff (∃ start ∈ s.inits, byteLength start = offset) (by simp [IsBoundary])

/-- A cut falls between two characters or there is none. -/
theorem dropBytes?_eq_some_iff {n : Nat} :
    dropBytes? n s = some t ↔ ∃ start, s = start ++ t ∧ byteLength start = n := by
  induction s generalizing n with
  | nil =>
    cases n with
    | zero => simp [dropBytes?, eq_comm]
    | succ n =>
      simp only [dropBytes?, reduceCtorEq, false_iff, not_exists, not_and]
      intro start hs
      obtain ⟨rfl, -⟩ := List.append_eq_nil_iff.mp hs.symm
      simp
  | cons c s ih =>
    have hc := c.utf8Size_pos
    cases n with
    | zero =>
      constructor
      · intro h
        exact ⟨[], by simpa [dropBytes?] using h, rfl⟩
      · rintro ⟨start, hs, hn⟩
        obtain rfl := eq_nil_of_byteLength_eq_zero hn
        simpa [dropBytes?] using hs
    | succ n =>
      rw [dropBytes?]
      constructor
      · intro h
        split at h
        · obtain ⟨start, rfl, hn⟩ := ih.mp h
          exact ⟨c :: start, rfl, by rw [byteLength_cons]; omega⟩
        · simp at h
      · rintro ⟨start, hs, hn⟩
        cases start with
        | nil => simp at hn
        | cons a start =>
          rw [List.cons_append, List.cons.injEq] at hs
          obtain ⟨rfl, rfl⟩ := hs
          rw [byteLength_cons] at hn
          rw [if_pos (by omega)]
          exact ih.mpr ⟨start, rfl, by omega⟩

end MethodSurvey.Text
