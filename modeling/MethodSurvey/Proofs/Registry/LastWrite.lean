import Mathlib.Data.List.Induction
import MethodSurvey.Proofs.Registry.Coherence

/-! A registry as a map in which the last write wins and the first one decides the order. -/

namespace MethodSurvey.Registry

/-- The distinct keys of some methods, each where it first comes up. -/
def keysInOrder (keying : Keying) (methods : List MethodRecord) : List String :=
  (methods.map fun method => keying.key method.name method.file).eraseDups

/-- The last of the methods with this key. -/
def lastWith (keying : Keying) (methods : List MethodRecord) (key : String) : Option MethodRecord :=
  methods.reverse.find? fun method => keying.key method.name method.file == key

theorem lastWith_eq_none_iff {keying : Keying} {methods : List MethodRecord} {key : String} :
    lastWith keying methods key = none ↔
      ∀ method ∈ methods, keying.key method.name method.file ≠ key := by
  simp [lastWith]

theorem lastWith_concat (keying : Keying) (methods : List MethodRecord) (method : MethodRecord)
    (key : String) :
    lastWith keying (methods ++ [method]) key =
      if keying.key method.name method.file = key then some method
      else lastWith keying methods key := by
  by_cases hk : keying.key method.name method.file = key <;> simp [lastWith, hk]

theorem eraseDups_concat (keys : List String) (key : String) :
    (keys ++ [key]).eraseDups = if key ∈ keys then keys.eraseDups else keys.eraseDups ++ [key] := by
  rw [List.eraseDups_append]
  by_cases hk : key ∈ keys
  · have hr : [key].removeAll keys = [] := by simpa [List.removeAll] using hk
    rw [hr, if_pos hk, List.eraseDups_nil, List.append_nil]
  · have hr : [key].removeAll keys = [key] := by simpa [List.removeAll] using hk
    rw [hr, if_neg hk]
    rfl

theorem keysInOrder_concat (keying : Keying) (methods : List MethodRecord) (method : MethodRecord) :
    keysInOrder keying (methods ++ [method]) =
      if keying.key method.name method.file ∈ keysInOrder keying methods then
        keysInOrder keying methods
      else keysInOrder keying methods ++ [keying.key method.name method.file] := by
  simp only [keysInOrder, List.map_append, List.map_cons, List.map_nil, eraseDups_concat,
    List.mem_eraseDups]

theorem filterMap_record_declaration (calls : List Event) (conforming : Bool) :
    (calls ++ [Event.declaration conforming]).filterMap Event.record? =
      calls.filterMap Event.record? := by
  rw [List.filterMap_append]
  exact List.append_nil _

theorem filterMap_record_method (calls : List Event) (method : MethodRecord) :
    (calls ++ [Event.method method]).filterMap Event.record? =
      calls.filterMap Event.record? ++ [method] := by
  rw [List.filterMap_append]
  rfl

theorem keying_recordAll (r : Registry) (events : List Event) :
    (r.recordAll events).keying = r.keying := by
  induction events generalizing r with
  | nil => rfl
  | cons event events ih =>
    rw [recordAll, List.foldl_cons, ← recordAll, ih]
    cases event with
    | declaration conforming => rfl
    | method method => exact keying_recordMethod method

theorem Coherent.recordAll {r : Registry} (h : r.Coherent) (events : List Event) :
    (r.recordAll events).Coherent := by
  induction events generalizing r with
  | nil => exact h
  | cons event events ih =>
    cases event with
    | declaration conforming => exact ih (r := r.recordDeclaration conforming) h
    | method method => exact ih (h.recordMethod method)

theorem recordAll_concat (r : Registry) (events : List Event) (event : Event) :
    r.recordAll (events ++ [event]) = (r.recordAll events).record event := by
  simp [Registry.recordAll]

theorem keyOf_recordAll (keying : Keying) (calls : List Event) (method : MethodRecord) :
    (recordAll { keying } calls).keyOf method = keying.key method.name method.file := by
  rw [keyOf, keying_recordAll]

theorem keys_recordAll (keying : Keying) (calls : List Event) :
    (recordAll { keying } calls).keys = keysInOrder keying (calls.filterMap Event.record?) := by
  induction calls using List.reverseRecOn with
  | nil => rfl
  | append_singleton calls call ih =>
    rw [recordAll_concat]
    cases call with
    | declaration conforming =>
      rw [filterMap_record_declaration]
      exact ih
    | method method =>
      have hc := (coherent_empty keying).recordAll calls
      rw [filterMap_record_method, keysInOrder_concat, ← ih, ← keyOf_recordAll keying calls]
      exact hc.keys_recordMethod method

theorem get?_recordAll (keying : Keying) (calls : List Event) (key : String) :
    (recordAll { keying } calls).get? key =
      lastWith keying (calls.filterMap Event.record?) key := by
  induction calls using List.reverseRecOn with
  | nil => simp [recordAll, get?, lastWith]
  | append_singleton calls call ih =>
    rw [recordAll_concat]
    cases call with
    | declaration conforming =>
      rw [filterMap_record_declaration]
      exact ih
    | method method =>
      have hc := (coherent_empty keying).recordAll calls
      rw [filterMap_record_method, lastWith_concat, ← ih, ← keyOf_recordAll keying calls]
      exact hc.get?_recordMethod method key

theorem totals_record (r : Registry) (event : Event) :
    (r.record event).totals =
      { declarations := r.totals.declarations + event.conforming?.toList.length
        nonConforming := r.totals.nonConforming + event.conforming?.toList.count false } := by
  cases event with
  | declaration conforming => cases conforming <;> rfl
  | method method =>
    simp only [record, recordMethod]
    split <;> rfl

theorem totals_recordAll (r : Registry) (events : List Event) :
    (r.recordAll events).totals =
      { declarations := r.totals.declarations + (events.filterMap Event.conforming?).length
        nonConforming :=
          r.totals.nonConforming + (events.filterMap Event.conforming?).count false } := by
  induction events generalizing r with
  | nil => rfl
  | cons event events ih =>
    rw [recordAll, List.foldl_cons, ← recordAll, ih, totals_record]
    cases hc : event.conforming? with
    | none => simp [hc]
    | some conforming =>
      simp only [List.filterMap_cons, hc, Option.toList_some, List.length_cons, List.count_cons,
        List.length_nil, List.count_nil, Totals.mk.injEq]
      omega

/-- After any calls on a fresh registry its records are, for each key in the order of
first occurrence, the last method recorded with it; looking up a key gives that record, and
nothing for a key that never came up; the totals count the declarations; and each key of a
record has the place of that record as its slot, while no other key has one. -/
theorem recordAll_refines_map (keying : Keying) (calls : List Event) :
    let r := recordAll { keying } calls
    let methods := calls.filterMap Event.record?
    let declarations := calls.filterMap Event.conforming?
    r.records.toList.map some = (keysInOrder keying methods).map (lastWith keying methods) ∧
      r.size = (keysInOrder keying methods).length ∧
      (∀ key, r.get? key = lastWith keying methods key) ∧
      (∀ key, r.get? key = none ↔ ∀ method ∈ methods, keying.key method.name method.file ≠ key) ∧
      r.totals = { declarations := declarations.length, nonConforming := declarations.count false } ∧
      ∀ key slot, r.slots[key]? = some slot ↔
        ∃ h : slot < r.records.size, keying.key r.records[slot].name r.records[slot].file = key := by
  intro r methods declarations
  have hc : r.Coherent := (coherent_empty keying).recordAll calls
  have hkeys : r.keys = keysInOrder keying methods := keys_recordAll keying calls
  have hget : ∀ key, r.get? key = lastWith keying methods key := get?_recordAll keying calls
  refine ⟨?_, ?_, hget, fun key => ?_, ?_, fun key slot => ?_⟩
  · rw [← hc.map_get?_keys, hkeys]
    exact List.map_congr_left fun key _ => hget key
  · rw [← hkeys]
    simp [size, keys]
  · rw [hget, lastWith_eq_none_iff]
  · simpa using totals_recordAll { keying } calls
  · rw [hc key slot, Option.map_eq_some_iff]
    simp only [Array.getElem?_eq_some_iff, keyOf_recordAll, r]
    constructor
    · rintro ⟨_, ⟨h, rfl⟩, hk⟩
      exact ⟨h, hk⟩
    · rintro ⟨h, hk⟩
      exact ⟨_, ⟨h, rfl⟩, hk⟩

end MethodSurvey.Registry
