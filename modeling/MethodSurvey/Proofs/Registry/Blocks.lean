import MethodSurvey.Proofs.Registry.LastWrite

/-! Methods in blocks of which no two have a key in common: in the registry the blocks
stand one after another, each as it would stand alone. -/

namespace MethodSurvey.Registry

variable {keying : Keying}

/-- No method of the first list has the key of one of the second. -/
def KeysApart (keying : Keying) (methods later : List MethodRecord) : Prop :=
  ∀ m ∈ methods, ∀ m' ∈ later, keying.key m.name m.file ≠ keying.key m'.name m'.file

theorem KeysApart.flatMap {ι : Type} {methods : List MethodRecord} {blocks : List ι}
    {later : ι → List MethodRecord} (h : ∀ p ∈ blocks, KeysApart keying methods (later p)) :
    KeysApart keying methods (blocks.flatMap later) := by
  intro m hm m' hm'
  obtain ⟨p, hp, hm'⟩ := List.mem_flatMap.mp hm'
  exact h p hp m hm m' hm'

theorem mem_keysInOrder_iff {methods : List MethodRecord} {key : String} :
    key ∈ keysInOrder keying methods ↔
      ∃ method ∈ methods, keying.key method.name method.file = key := by
  simp only [keysInOrder, List.mem_eraseDups, List.mem_map]

theorem mem_slots_recordAll_iff (keying : Keying) (calls : List Event) (key : String) :
    key ∈ (recordAll { keying } calls).slots ↔
      ∃ m ∈ calls.filterMap Event.record?, keying.key m.name m.file = key := by
  have hc : (recordAll { keying } calls).Coherent := (coherent_empty keying).recordAll calls
  rw [Std.HashMap.mem_iff_isSome_getElem?, ← hc.mem_keys_iff, keys_recordAll, mem_keysInOrder_iff]

theorem keysInOrder_append {methods later : List MethodRecord}
    (h : KeysApart keying methods later) :
    keysInOrder keying (methods ++ later) =
      keysInOrder keying methods ++ keysInOrder keying later := by
  have hr : (later.map fun m => keying.key m.name m.file).removeAll
      (methods.map fun m => keying.key m.name m.file) =
        later.map fun m => keying.key m.name m.file := by
    rw [List.removeAll, List.filter_eq_self]
    intro key hkey
    obtain ⟨m', hm', rfl⟩ := List.mem_map.mp hkey
    have hn : keying.key m'.name m'.file ∉ methods.map fun m => keying.key m.name m.file := by
      intro hmem
      obtain ⟨m, hm, he⟩ := List.mem_map.mp hmem
      exact h m hm m' hm' he
    simpa using hn
  rw [keysInOrder, List.map_append, List.eraseDups_append, hr]
  rfl

theorem lastWith_append (methods later : List MethodRecord) (key : String) :
    lastWith keying (methods ++ later) key =
      (lastWith keying later key).or (lastWith keying methods key) := by
  rw [lastWith, List.reverse_append, List.find?_append]
  rfl

theorem map_some_records (keying : Keying) (calls : List Event) :
    (recordAll { keying } calls).records.toList.map some =
      (keysInOrder keying (calls.filterMap Event.record?)).map
        (lastWith keying (calls.filterMap Event.record?)) := by
  have hc : (recordAll { keying } calls).Coherent := (coherent_empty keying).recordAll calls
  rw [← hc.map_get?_keys, keys_recordAll]
  exact List.map_congr_left fun key _ => get?_recordAll keying calls key

theorem records_recordAll (keying : Keying) (calls : List Event) :
    (recordAll { keying } calls).records.toList =
      (keysInOrder keying (calls.filterMap Event.record?)).filterMap
        (lastWith keying (calls.filterMap Event.record?)) := by
  have hrecords := congrArg (List.filterMap id) (map_some_records keying calls)
  simpa [List.filterMap_map] using hrecords

theorem records_append {calls later : List Event}
    (h : KeysApart keying (calls.filterMap Event.record?) (later.filterMap Event.record?)) :
    (recordAll { keying } (calls ++ later)).records.toList =
      (recordAll { keying } calls).records.toList ++
        (recordAll { keying } later).records.toList := by
  have hfirst : ∀ key ∈ keysInOrder keying (calls.filterMap Event.record?),
      lastWith keying (later.filterMap Event.record?) key = none := by
    intro key hkey
    obtain ⟨m, hm, rfl⟩ := mem_keysInOrder_iff.mp hkey
    exact lastWith_eq_none_iff.mpr fun m' hm' => (h m hm m' hm').symm
  have hlater : ∀ key ∈ keysInOrder keying (later.filterMap Event.record?),
      lastWith keying (calls.filterMap Event.record?) key = none := by
    intro key hkey
    obtain ⟨m', hm', rfl⟩ := mem_keysInOrder_iff.mp hkey
    exact lastWith_eq_none_iff.mpr fun m hm => h m hm m' hm'
  -- Compared as options, since that is what the last method with a key is.
  apply List.map_injective_iff.mpr fun _ _ he => Option.some.inj he
  rw [List.map_append, map_some_records, map_some_records, map_some_records,
    List.filterMap_append, keysInOrder_append h, List.map_append]
  congr 1
  · refine List.map_congr_left fun key hkey => ?_
    rw [lastWith_append, hfirst key hkey, Option.none_or]
  · refine List.map_congr_left fun key hkey => ?_
    rw [lastWith_append, hlater key hkey, Option.or_none]

section Blocks

variable {ι : Type} (calls : ι → List Event)

/-- The methods of the calls of a block. -/
def methodsOf (p : ι) : List MethodRecord :=
  (calls p).filterMap Event.record?

theorem filterMap_record?_flatMap (blocks : List ι) :
    (blocks.flatMap calls).filterMap Event.record? = blocks.flatMap (methodsOf calls) :=
  List.filterMap_flatMap

theorem records_flatMap {blocks : List ι}
    (h : blocks.Pairwise fun p q => KeysApart keying (methodsOf calls p) (methodsOf calls q)) :
    (recordAll { keying } (blocks.flatMap calls)).records.toList =
      blocks.flatMap fun p => (recordAll { keying } (calls p)).records.toList := by
  induction blocks with
  | nil => rfl
  | cons p blocks ih =>
    obtain ⟨hp, hrest⟩ := List.pairwise_cons.mp h
    have hapart : KeysApart keying ((calls p).filterMap Event.record?)
        ((blocks.flatMap calls).filterMap Event.record?) := by
      rw [filterMap_record?_flatMap]
      exact KeysApart.flatMap hp
    rw [List.flatMap_cons, List.flatMap_cons, records_append hapart, ih hrest]

theorem lastWith_flatMap {methods : ι → List MethodRecord} {blocks : List ι} {p : ι}
    {key : String} (hp : p ∈ blocks)
    (h : ∀ q ∈ blocks, q ≠ p → lastWith keying (methods q) key = none) :
    lastWith keying (blocks.flatMap methods) key = lastWith keying (methods p) key := by
  induction blocks with
  | nil => cases hp
  | cons q blocks ih =>
    have hrest : ∀ q' ∈ blocks, q' ≠ p → lastWith keying (methods q') key = none :=
      fun q' hq' => h q' (List.mem_cons_of_mem _ hq')
    rw [List.flatMap_cons, lastWith_append]
    -- The block of the key may stand in the list more than once.
    by_cases hmem : p ∈ blocks
    · rw [ih hmem hrest]
      by_cases hq : q = p
      · rw [hq, Option.or_self]
      · rw [h q List.mem_cons_self hq, Option.or_none]
    · obtain rfl : p = q := (List.mem_cons.mp hp).resolve_right hmem
      have hnone : lastWith keying (blocks.flatMap methods) key = none := by
        refine lastWith_eq_none_iff.mpr fun m hm => ?_
        obtain ⟨q', hq', hm⟩ := List.mem_flatMap.mp hm
        have hne : q' ≠ p := fun he => hmem (he ▸ hq')
        exact lastWith_eq_none_iff.mp (hrest q' hq' hne) m hm
      rw [hnone, Option.none_or]

/-- A key that comes up in one block only gives what it gives after that block alone. -/
theorem get?_flatMap {blocks : List ι} {p : ι} {key : String} (hp : p ∈ blocks)
    (h : ∀ q ∈ blocks, q ≠ p → ∀ m ∈ methodsOf calls q, keying.key m.name m.file ≠ key) :
    (recordAll { keying } (blocks.flatMap calls)).get? key =
      lastWith keying (methodsOf calls p) key := by
  rw [get?_recordAll, filterMap_record?_flatMap]
  exact lastWith_flatMap hp fun q hq hne => lastWith_eq_none_iff.mpr (h q hq hne)

end Blocks

end MethodSurvey.Registry
