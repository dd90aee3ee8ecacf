import Mathlib.Data.List.Basic
import MethodSurvey.Registry

/-! The slots of a registry and its records belong together, whatever is recorded. -/

namespace MethodSurvey.Registry

/-- The keys of the records, in their order. -/
def keys (r : Registry) : List String :=
  r.records.toList.map r.keyOf

/-- Each key that a record has is given the place of that record, and no other key has a slot. -/
def Coherent (r : Registry) : Prop :=
  ∀ key slot, r.slots[key]? = some slot ↔ r.records[slot]?.map r.keyOf = some key

theorem coherent_empty (keying : Keying) : Coherent { keying } := by
  intro key slot
  simp

variable {r : Registry}

@[simp] theorem keying_recordMethod (method : MethodRecord) :
    (r.recordMethod method).keying = r.keying := by
  unfold recordMethod
  split <;> rfl

theorem keyOf_recordMethod (method : MethodRecord) : (r.recordMethod method).keyOf = r.keyOf := by
  funext m
  simp [keyOf]

theorem recordMethod_of_slot {method : MethodRecord} {slot : Nat}
    (h : r.slots[r.keyOf method]? = some slot) :
    r.recordMethod method = { r with records := r.records.setIfInBounds slot method } := by
  simp [recordMethod, h]

theorem recordMethod_of_no_slot {method : MethodRecord} (h : r.slots[r.keyOf method]? = none) :
    r.recordMethod method =
      { r with
        slots := r.slots.insert (r.keyOf method) r.records.size
        records := r.records.push method } := by
  simp [recordMethod, h]

namespace Coherent

theorem slot_lt (h : r.Coherent) {key : String} {slot : Nat} (hs : r.slots[key]? = some slot) :
    slot < r.records.size := by
  obtain ⟨record, hr, _⟩ := Option.map_eq_some_iff.mp ((h key slot).mp hs)
  exact (Array.getElem?_eq_some_iff.mp hr).1

/-- A record that takes the place of another one has its key. -/
theorem map_keyOf_set (h : r.Coherent) {method : MethodRecord} {slot : Nat}
    (hs : r.slots[r.keyOf method]? = some slot) (i : Nat) :
    (r.records.setIfInBounds slot method)[i]?.map r.keyOf = r.records[i]?.map r.keyOf := by
  by_cases hi : slot = i
  · subst i
    rw [(h _ _).mp hs, Array.getElem?_setIfInBounds, if_pos rfl, if_pos (h.slot_lt hs)]
    rfl
  · rw [Array.getElem?_setIfInBounds, if_neg hi]

theorem recordMethod (h : r.Coherent) (method : MethodRecord) :
    (r.recordMethod method).Coherent := by
  intro key slot
  rw [keyOf_recordMethod]
  cases hs : r.slots[r.keyOf method]? with
  | some old =>
    rw [recordMethod_of_slot hs]
    simp only [h.map_keyOf_set hs]
    exact h key slot
  | none =>
    rw [recordMethod_of_no_slot hs]
    simp only [Std.HashMap.getElem?_insert, Array.getElem?_push, beq_iff_eq]
    by_cases hk : r.keyOf method = key
    · subst key
      by_cases hn : slot = r.records.size
      · simp [hn]
      · have hr := (h (r.keyOf method) slot).not.mp (by simp [hs])
        simp [hn, Ne.symm hn, hr]
    · by_cases hn : slot = r.records.size
      · have hr : r.slots[key]? ≠ some r.records.size := fun hr => by simpa using h.slot_lt hr
        simp [hk, hn, hr]
      · simpa [hk, hn] using h key slot

/-- After a method has been recorded, its key gives that method and other keys what they gave. -/
theorem get?_recordMethod (h : r.Coherent) (method : MethodRecord) (key : String) :
    (r.recordMethod method).get? key =
      if r.keyOf method = key then some method else r.get? key := by
  cases hs : r.slots[r.keyOf method]? with
  | some slot =>
    rw [recordMethod_of_slot hs]
    by_cases hk : r.keyOf method = key
    · subst key
      simp [get?, hs, Array.getElem?_setIfInBounds, h.slot_lt hs]
    · cases ho : r.slots[key]? with
      | none => simp [get?, ho, hk]
      | some other =>
        have hne : slot ≠ other := by
          rintro rfl
          exact hk (Option.some.inj (((h _ _).mp hs).symm.trans ((h _ _).mp ho)))
        simp [get?, ho, hk, Array.getElem?_setIfInBounds, hne]
  | none =>
    rw [recordMethod_of_no_slot hs]
    by_cases hk : r.keyOf method = key
    · simp [get?, hk]
    · cases ho : r.slots[key]? with
      | none => simp [get?, Std.HashMap.getElem?_insert, ho, hk]
      | some other =>
        have hne : other ≠ r.records.size := Nat.ne_of_lt (h.slot_lt ho)
        simp [get?, Std.HashMap.getElem?_insert, ho, hk, Array.getElem?_push, hne]

theorem mem_keys_iff (h : r.Coherent) {key : String} : key ∈ r.keys ↔ (r.slots[key]?).isSome := by
  rw [Option.isSome_iff_exists]
  simp only [h key, Option.map_eq_some_iff, keys, List.mem_map, Array.mem_toList_iff,
    Array.mem_iff_getElem?]
  exact ⟨fun ⟨m, ⟨i, hi⟩, hk⟩ => ⟨i, m, hi, hk⟩, fun ⟨i, m, hi, hk⟩ => ⟨m, ⟨i, hi⟩, hk⟩⟩

theorem keys_recordMethod (h : r.Coherent) (method : MethodRecord) :
    (r.recordMethod method).keys =
      if r.keyOf method ∈ r.keys then r.keys else r.keys ++ [r.keyOf method] := by
  rw [keys, keyOf_recordMethod]
  cases hs : r.slots[r.keyOf method]? with
  | some slot =>
    have hm : r.keyOf method ∈ r.keys := h.mem_keys_iff.mpr (by simp [hs])
    rw [recordMethod_of_slot hs, if_pos hm, keys]
    apply List.ext_getElem?
    intro i
    rw [List.getElem?_map, List.getElem?_map, Array.getElem?_toList, Array.getElem?_toList]
    exact h.map_keyOf_set hs i
  | none =>
    have hm : r.keyOf method ∉ r.keys := fun hm => by simpa [hs] using h.mem_keys_iff.mp hm
    rw [recordMethod_of_no_slot hs, if_neg hm]
    simp [keys]

theorem get?_keyOf (h : r.Coherent) {method : MethodRecord} (hm : method ∈ r.records.toList) :
    r.get? (r.keyOf method) = some method := by
  obtain ⟨i, hi⟩ := Array.mem_iff_getElem?.mp (Array.mem_toList_iff.mp hm)
  have hs : r.slots[r.keyOf method]? = some i := (h _ _).mpr (by simp [hi])
  simp [get?, hs, hi]

/-- The records are what their keys give. -/
theorem map_get?_keys (h : r.Coherent) : r.keys.map r.get? = r.records.toList.map some := by
  rw [keys, List.map_map]
  exact List.map_congr_left fun method hm => h.get?_keyOf hm

end Coherent

end MethodSurvey.Registry
