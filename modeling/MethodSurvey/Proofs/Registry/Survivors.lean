import Mathlib.Data.List.Nodup
import Mathlib.Data.List.Perm.Subperm
import MethodSurvey.Proofs.Registry.Blocks

/-! The records of a registry are the methods that nothing with their key came after. Under
finer keys no method is lost that survives under coarser ones. -/

namespace MethodSurvey.Registry

theorem getElem?_keys (r : Registry) (i : Nat) : r.keys[i]? = r.records[i]?.map r.keyOf := by
  rw [keys, List.getElem?_map, Array.getElem?_toList]

/-- Two records with one key would have to share its slot. -/
theorem Coherent.nodup_keys {r : Registry} (h : r.Coherent) : r.keys.Nodup := by
  rw [List.nodup_iff_getElem?_ne_getElem?]
  intro i j hij hj he
  have hi : i < r.keys.length := Nat.lt_trans hij hj
  have hslot : r.slots[r.keys[i]]? = some i :=
    (h _ _).mpr ((getElem?_keys r i).symm.trans (List.getElem?_eq_getElem hi))
  have hslot' : r.slots[r.keys[i]]? = some j :=
    (h _ _).mpr ((getElem?_keys r j).symm.trans (he.symm.trans (List.getElem?_eq_getElem hi)))
  have hsame : i = j := Option.some.inj (hslot.symm.trans hslot')
  omega

theorem size_pos_of_mem {r : Registry} {m : MethodRecord} (h : m ∈ r.records.toList) :
    0 < r.size := by
  rw [size, ← Array.length_toList]
  exact List.length_pos_of_mem h

variable {keying fine coarse : Keying}

theorem mem_of_lastWith {methods : List MethodRecord} {key : String} {m : MethodRecord}
    (h : lastWith keying methods key = some m) : m ∈ methods :=
  List.mem_reverse.mp (List.mem_of_find?_eq_some h)

theorem key_of_lastWith {methods : List MethodRecord} {key : String} {m : MethodRecord}
    (h : lastWith keying methods key = some m) : keying.key m.name m.file = key := by
  have hk := List.find?_some h
  exact beq_iff_eq.mp hk

theorem exists_lastWith_of_mem (keying : Keying) {methods : List MethodRecord} {m : MethodRecord}
    (h : m ∈ methods) : ∃ m', lastWith keying methods (keying.key m.name m.file) = some m' := by
  apply Option.ne_none_iff_exists'.mp
  intro hn
  exact lastWith_eq_none_iff.mp hn m h rfl

variable (calls : List Event)

theorem mem_records_recordAll_iff {m : MethodRecord} :
    m ∈ (recordAll { keying } calls).records.toList ↔
      lastWith keying (calls.filterMap Event.record?) (keying.key m.name m.file) = some m := by
  constructor
  · intro h
    have hc : (recordAll { keying } calls).Coherent := (coherent_empty keying).recordAll calls
    have hg := hc.get?_keyOf h
    rwa [keyOf_recordAll, get?_recordAll] at hg
  · intro h
    have hkey : keying.key m.name m.file ∈ keysInOrder keying (calls.filterMap Event.record?) :=
      mem_keysInOrder_iff.mpr ⟨m, mem_of_lastWith h, rfl⟩
    have hm : some m ∈ (recordAll { keying } calls).records.toList.map some := by
      rw [map_some_records]
      exact List.mem_map.mpr ⟨_, hkey, h⟩
    simpa using hm

theorem records_subset_methods (keying : Keying) :
    (recordAll { keying } calls).records.toList ⊆ calls.filterMap Event.record? :=
  fun _ h => mem_of_lastWith ((mem_records_recordAll_iff calls).mp h)

theorem nodup_records (keying : Keying) : (recordAll { keying } calls).records.toList.Nodup := by
  have hc : (recordAll { keying } calls).Coherent := (coherent_empty keying).recordAll calls
  exact List.Nodup.of_map _ hc.nodup_keys

/-- There are at most as many records as methods that were recorded. -/
theorem size_recordAll_le (keying : Keying) :
    (recordAll { keying } calls).size ≤ (calls.filterMap Event.record?).length := by
  have hs := List.subperm_of_subset (nodup_records calls keying)
    (records_subset_methods calls keying)
  simpa [size] using hs.length_le

/-- Among the methods those with the same fine key have the same coarse key. -/
def Refines (fine coarse : Keying) (methods : List MethodRecord) : Prop :=
  ∀ m ∈ methods, ∀ m' ∈ methods, fine.key m.name m.file = fine.key m'.name m'.file →
    coarse.key m.name m.file = coarse.key m'.name m'.file

theorem Refines.lastWith_fine {methods : List MethodRecord} (h : Refines fine coarse methods)
    {m : MethodRecord} (hm : lastWith coarse methods (coarse.key m.name m.file) = some m) :
    lastWith fine methods (fine.key m.name m.file) = some m := by
  have hmem := mem_of_lastWith hm
  rw [lastWith, List.find?_eq_some_iff_append] at hm ⊢
  obtain ⟨-, later, earlier, hsplit, hlater⟩ := hm
  refine ⟨beq_self_eq_true _, later, earlier, hsplit, fun m' hm' => ?_⟩
  have hmem' : m' ∈ methods := by
    rw [← List.mem_reverse, hsplit]
    exact List.mem_append_left _ hm'
  have hne : coarse.key m'.name m'.file ≠ coarse.key m.name m.file := by
    simpa using hlater m' hm'
  have hfine : fine.key m'.name m'.file ≠ fine.key m.name m.file :=
    fun he => hne (h m' hmem' m hmem he)
  simpa using hfine

theorem Refines.records_subset (h : Refines fine coarse (calls.filterMap Event.record?)) :
    (recordAll { keying := coarse } calls).records.toList ⊆
      (recordAll { keying := fine } calls).records.toList := by
  intro m hm
  rw [mem_records_recordAll_iff] at hm ⊢
  exact h.lastWith_fine hm

theorem Refines.records_subperm (h : Refines fine coarse (calls.filterMap Event.record?)) :
    (recordAll { keying := coarse } calls).records.toList.Subperm
      (recordAll { keying := fine } calls).records.toList :=
  List.subperm_of_subset (nodup_records calls coarse) (h.records_subset calls)

/-- Where the keys tell names apart, every name that was recorded is that of a record. -/
theorem Refines.exists_record_iff (h : Refines keying .name (calls.filterMap Event.record?))
    (name : String) :
    (∃ m ∈ (recordAll { keying } calls).records.toList, m.name = name) ↔
      ∃ m ∈ calls.filterMap Event.record?, m.name = name := by
  constructor
  · rintro ⟨m, hm, hn⟩
    exact ⟨m, records_subset_methods calls keying hm, hn⟩
  · rintro ⟨m, hm, rfl⟩
    obtain ⟨m', hlast⟩ := exists_lastWith_of_mem keying hm
    have hkey := key_of_lastWith hlast
    have hname : m'.name = m.name := h m' (mem_of_lastWith hlast) m hm hkey
    refine ⟨m', (mem_records_recordAll_iff calls).mpr ?_, hname⟩
    rw [hkey, hlast]

end MethodSurvey.Registry
