import Mathlib.Data.List.NodupEquivFin
import Mathlib.Data.List.Sort
import Mathlib.Order.WellFounded
import MethodSurvey.Registry

/-! The ranking of the records of a registry. -/

namespace MethodSurvey.Registry

theorem ranking_perm (r : Registry) : r.ranking.Perm r.records.toList :=
  List.mergeSort_perm _ _

theorem falls_trans (a b c : MethodRecord) (hab : decide (b.complexity ≤ a.complexity) = true)
    (hbc : decide (c.complexity ≤ b.complexity) = true) :
    decide (c.complexity ≤ a.complexity) = true := by
  simp only [decide_eq_true_iff] at *
  omega

theorem falls_total (a b : MethodRecord) :
    (decide (b.complexity ≤ a.complexity) || decide (a.complexity ≤ b.complexity)) = true := by
  simp only [Bool.or_eq_true, decide_eq_true_iff]
  omega

theorem pairwise_ranking (r : Registry) :
    r.ranking.Pairwise fun a b => b.complexity ≤ a.complexity := by
  have hs : r.ranking.Pairwise fun a b => decide (b.complexity ≤ a.complexity) = true :=
    List.pairwise_mergeSort falls_trans falls_total _
  exact hs.imp fun h => of_decide_eq_true h

/-- Records in another order are ranked with the same complexities. -/
theorem map_complexity_ranking_of_perm {r r' : Registry}
    (h : r.records.toList.Perm r'.records.toList) :
    r.ranking.map MethodRecord.complexity = r'.ranking.map MethodRecord.complexity := by
  have hperm : r.ranking.Perm r'.ranking := r.ranking_perm.trans (h.trans r'.ranking_perm.symm)
  have hs : (r.ranking.map MethodRecord.complexity).Pairwise fun a b => b ≤ a :=
    List.pairwise_map.mpr r.pairwise_ranking
  have hs' : (r'.ranking.map MethodRecord.complexity).Pairwise fun a b => b ≤ a :=
    List.pairwise_map.mpr r'.pairwise_ranking
  exact (hperm.map _).eq_of_pairwise (fun _ _ _ _ hab hba => Nat.le_antisymm hba hab) hs hs'

theorem length_ranking (r : Registry) : r.ranking.length = r.size := by
  rw [r.ranking_perm.length_eq, Array.length_toList, size]

theorem length_top (r : Registry) (k : Nat) : (r.top k).length = min k r.size := by
  rw [top, List.length_take, length_ranking]

theorem sortedGE_map_complexity_ranking (r : Registry) :
    (r.ranking.map MethodRecord.complexity).SortedGE :=
  (List.pairwise_map.mpr r.pairwise_ranking).sortedGE

/-- Where further numbers come into a falling list, what stands at an index does not fall. -/
theorem le_of_sublist_of_sortedGE {l l' : List Nat} (h : l.Sublist l') (hs : l'.SortedGE)
    {i a b : Nat} (ha : l[i]? = some a) (hb : l'[i]? = some b) : a ≤ b := by
  obtain ⟨f, hf⟩ := List.sublist_iff_exists_orderEmbedding_getElem?_eq.mp h
  have hle : i ≤ f i := f.strictMono.le_apply
  have hmoved : l'[f i]? = some a := (hf i).symm.trans ha
  obtain ⟨hlt, rfl⟩ := List.getElem?_eq_some_iff.mp hmoved
  obtain ⟨hlt', rfl⟩ := List.getElem?_eq_some_iff.mp hb
  exact hs.getElem_ge_getElem_of_le hle

/-- A registry with further records has at no rank a lower complexity. -/
theorem exists_ranking_le_of_subperm {r r' : Registry}
    (h : r.records.toList.Subperm r'.records.toList) {i : Nat} (hi : i < r.size) :
    ∃ m m', r.ranking[i]? = some m ∧ r'.ranking[i]? = some m' ∧ m.complexity ≤ m'.complexity := by
  have hsub : r.ranking.Subperm r'.ranking :=
    r.ranking_perm.subperm.trans (h.trans r'.ranking_perm.symm.subperm)
  have hlt : i < r.ranking.length := by rwa [length_ranking]
  have hm := List.getElem?_eq_getElem hlt
  have hm' := List.getElem?_eq_getElem (Nat.lt_of_lt_of_le hlt hsub.length_le)
  refine ⟨_, _, hm, hm', ?_⟩
  obtain ⟨l, hperm, hl⟩ := hsub
  have hcomplexities : (r.ranking.map MethodRecord.complexity).Sublist
      (r'.ranking.map MethodRecord.complexity) :=
    List.sublist_of_subperm_of_sortedGE ⟨_, hperm.map _, hl.map _⟩
      r.sortedGE_map_complexity_ranking r'.sortedGE_map_complexity_ranking
  apply le_of_sublist_of_sortedGE hcomplexities r'.sortedGE_map_complexity_ranking
  · rw [List.getElem?_map, hm, Option.map_some]
  · rw [List.getElem?_map, hm', Option.map_some]

end MethodSurvey.Registry
