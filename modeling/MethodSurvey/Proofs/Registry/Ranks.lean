import MethodSurvey.Proofs.Registry.Ranking

/-! The ranking by places. Records of equal complexity are told apart by the places that they
have in the registry, so that one list of places, and no other, ranks first. -/

namespace MethodSurvey.Registry

variable {r : Registry}

/-- The record at place `i` has the higher complexity, or the same and an earlier place. -/
def Outranks (r : Registry) (i j : Nat) : Prop :=
  ∃ m ∈ r.records[i]?, ∃ m' ∈ r.records[j]?,
    m'.complexity < m.complexity ∨ m'.complexity = m.complexity ∧ i < j

instance (r : Registry) (i j : Nat) : Decidable (r.Outranks i j) :=
  inferInstanceAs (Decidable (∃ m ∈ r.records[i]?, ∃ m' ∈ r.records[j]?,
    m'.complexity < m.complexity ∨ m'.complexity = m.complexity ∧ i < j))

theorem Outranks.asymm {i j : Nat} (h : r.Outranks i j) : ¬ r.Outranks j i := by
  intro hback
  obtain ⟨m, hm, m', hm', h⟩ := h
  obtain ⟨a', ha', a, ha, hback⟩ := hback
  obtain rfl : m = a := Option.mem_unique hm ha
  obtain rfl : m' = a' := Option.mem_unique hm' ha'
  omega

/-- The places of `k` records, or of all if there are fewer, that outrank one another in the order
of the list, and each of them every record that is left out. -/
structure RanksFirst (r : Registry) (k : Nat) (places : List Nat) : Prop where
  length_eq : places.length = min k r.size
  lt_size : ∀ i ∈ places, i < r.size
  nodup : places.Nodup
  ordered : places.Pairwise r.Outranks
  before_rest : ∀ i ∈ places, ∀ j < r.size, j ∉ places → r.Outranks i j

/-- The records with their places, ranked by both. -/
def rankedEntries (r : Registry) : List (MethodRecord × Nat) :=
  r.records.toList.zipIdx.mergeSort (List.zipIdxLE fun a b => b.complexity ≤ a.complexity)

def rankedPlaces (r : Registry) : List Nat :=
  r.rankedEntries.map Prod.snd

theorem map_fst_rankedEntries (r : Registry) : r.rankedEntries.map Prod.fst = r.ranking :=
  List.mergeSort_zipIdx

theorem getElem?_of_mem_rankedEntries {entry : MethodRecord × Nat} (h : entry ∈ r.rankedEntries) :
    r.records[entry.2]? = some entry.1 := by
  have hm := List.mem_zipIdx_iff_getElem?.mp (List.mem_mergeSort.mp h)
  rwa [Array.getElem?_toList] at hm

theorem map_rankedPlaces (r : Registry) :
    r.rankedPlaces.map (r.records[·]?) = r.ranking.map some := by
  rw [← map_fst_rankedEntries, rankedPlaces, List.map_map, List.map_map]
  apply List.map_congr_left
  intro entry he
  exact getElem?_of_mem_rankedEntries he

theorem perm_rankedPlaces (r : Registry) : r.rankedPlaces.Perm (List.range r.size) := by
  have hp : r.rankedEntries.Perm r.records.toList.zipIdx := List.mergeSort_perm _ _
  have hplaces := hp.map Prod.snd
  rwa [List.zipIdx_map_snd, Array.length_toList, ← List.range_eq_range'] at hplaces

theorem nodup_rankedPlaces (r : Registry) : r.rankedPlaces.Nodup :=
  r.perm_rankedPlaces.nodup_iff.mpr List.nodup_range

theorem mem_rankedPlaces_iff {i : Nat} : i ∈ r.rankedPlaces ↔ i < r.size :=
  r.perm_rankedPlaces.mem_iff.trans List.mem_range

theorem outranks_of_zipIdxLE {a b : MethodRecord × Nat}
    (ha : r.records[a.2]? = some a.1) (hb : r.records[b.2]? = some b.1) (hne : a.2 ≠ b.2)
    (h : List.zipIdxLE (fun a b => decide (b.complexity ≤ a.complexity)) a b = true) :
    r.Outranks a.2 b.2 := by
  refine ⟨a.1, ha, b.1, hb, ?_⟩
  simp only [List.zipIdxLE, decide_eq_true_eq] at h
  split at h
  · split at h
    · simp only [decide_eq_true_eq] at h
      omega
    · omega
  · cases h

theorem pairwise_rankedPlaces (r : Registry) : r.rankedPlaces.Pairwise r.Outranks := by
  have hs := List.pairwise_mergeSort (List.zipIdxLE_trans falls_trans)
    (List.zipIdxLE_total falls_total) r.records.toList.zipIdx
  have hapart : r.rankedEntries.Pairwise fun a b => a.2 ≠ b.2 :=
    List.pairwise_map.mp r.nodup_rankedPlaces
  apply List.pairwise_map.mpr
  apply (hs.and hapart).imp_of_mem
  intro a b ha hb h
  have hma := getElem?_of_mem_rankedEntries ha
  have hmb := getElem?_of_mem_rankedEntries hb
  exact outranks_of_zipIdxLE hma hmb h.2 h.1

theorem ranksFirst_take (r : Registry) (k : Nat) : r.RanksFirst k (r.rankedPlaces.take k) where
  length_eq := by rw [List.length_take, r.perm_rankedPlaces.length_eq, List.length_range]
  lt_size := fun i hi => mem_rankedPlaces_iff.mp (List.mem_of_mem_take hi)
  nodup := r.nodup_rankedPlaces.sublist (List.take_sublist _ _)
  ordered := r.pairwise_rankedPlaces.sublist (List.take_sublist _ _)
  before_rest := by
    intro i hi j hj hne
    have hmem : j ∈ r.rankedPlaces.take k ++ r.rankedPlaces.drop k := by
      rw [List.take_append_drop]
      exact mem_rankedPlaces_iff.mpr hj
    have hdrop : j ∈ r.rankedPlaces.drop k := (List.mem_append.mp hmem).resolve_left hne
    exact r.pairwise_rankedPlaces.rel_of_mem_take_of_mem_drop hi hdrop

/-- Places that outrank the rest, followed by the rest in its order, are the places of all records
in theirs. -/
theorem RanksFirst.eq_take {k : Nat} {places : List Nat} (h : r.RanksFirst k places) :
    places = r.rankedPlaces.take k := by
  let rest := r.rankedPlaces.filter fun i => !decide (i ∈ places)
  have hchosen : (r.rankedPlaces.filter fun i => decide (i ∈ places)).Perm places := by
    apply (List.perm_ext_iff_of_nodup (r.nodup_rankedPlaces.filter _) h.nodup).mpr
    intro i
    rw [List.mem_filter, decide_eq_true_iff, mem_rankedPlaces_iff]
    exact and_iff_right_of_imp (h.lt_size i)
  have hperm : (places ++ rest).Perm r.rankedPlaces :=
    (hchosen.symm.append_right rest).trans (List.filter_append_perm _ _)
  have hordered : (places ++ rest).Pairwise r.Outranks := by
    apply List.pairwise_append.mpr
    refine ⟨h.ordered, r.pairwise_rankedPlaces.filter _, fun i hi j hj => ?_⟩
    obtain ⟨hj, hout⟩ := List.mem_filter.mp hj
    exact h.before_rest i hi j (mem_rankedPlaces_iff.mp hj) (by simpa using hout)
  have hall : places ++ rest = r.rankedPlaces :=
    hperm.eq_of_pairwise (fun _ _ _ _ hab hba => absurd hba hab.asymm) hordered
      r.pairwise_rankedPlaces
  calc
    places = r.rankedPlaces.take places.length := List.prefix_iff_eq_take.mp ⟨rest, hall⟩
    _ = r.rankedPlaces.take k := by
      rw [List.take_eq_take_iff, h.length_eq, r.perm_rankedPlaces.length_eq, List.length_range]
      omega

/-- The `k` records that are given out stand at the places that rank first, and only one list of
places does so. So a longer ranking begins with a shorter one. -/
theorem top_ranks_first (r : Registry) (k : Nat) :
    (r.top k).length = min k r.size ∧
      (∃ places, r.RanksFirst k places ∧ (r.top k).map some = places.map (r.records[·]?) ∧
        ∀ places', r.RanksFirst k places' → places' = places) ∧
      ∀ k', k ≤ k' → r.top k <+: r.top k' := by
  refine ⟨r.length_top k, ⟨r.rankedPlaces.take k, r.ranksFirst_take k, ?_, ?_⟩, ?_⟩
  · rw [List.map_take, r.map_rankedPlaces, top, List.map_take]
  · intro places' h
    exact h.eq_take
  · intro k' h
    exact List.take_prefix_take_left h

/-- Of three records with the highest complexity the two that were there first are given out. -/
theorem top_ranks_first_of_ties :
    let r : Registry :=
      { keying := .name
        records := #[⟨"a", "A.java", 1⟩, ⟨"b", "A.java", 5⟩, ⟨"c", "B.java", 5⟩, ⟨"d", "A.java", 5⟩]
        slots := .ofList [("a", 0), ("b", 1), ("c", 2), ("d", 3)] }
    r.RanksFirst 2 [1, 2] ∧ (r.top 2).map some = [1, 2].map (r.records[·]?) ∧
      r.top 2 <+: r.top 3 := by
  intro r
  obtain ⟨-, ⟨places, -, htop, hunique⟩, hlonger⟩ := top_ranks_first r 2
  have hfirst : r.RanksFirst 2 [1, 2] :=
    ⟨by decide, by decide, by decide, by decide, by decide⟩
  refine ⟨hfirst, ?_, hlonger 3 (by decide)⟩
  rw [htop, hunique [1, 2] hfirst]

end MethodSurvey.Registry
