import MethodSurvey.Proofs.Registry.LastWrite

/-! Methods and declarations do not get in each other's way: what a registry holds is
decided by the methods in their order and by the declarations in any. -/

namespace MethodSurvey.Registry

theorem recordAll_append (r : Registry) (events later : List Event) :
    r.recordAll (events ++ later) = (r.recordAll events).recordAll later := by
  simp only [recordAll, List.foldl_append]

theorem recordAll_flatten (r : Registry) (replays : List (List Event)) :
    r.recordAll replays.flatten = replays.foldl recordAll r := by
  induction replays generalizing r with
  | nil => rfl
  | cons calls replays ih => rw [List.flatten_cons, recordAll_append, ih, List.foldl_cons]

theorem recordMethod_setTotals (r : Registry) (totals : Totals) (method : MethodRecord) :
    recordMethod { r with totals } method = { r.recordMethod method with totals } := by
  cases hs : r.slots[r.keyOf method]? with
  | some slot =>
    have hs' : ({ r with totals } : Registry).slots[keyOf { r with totals } method]? = some slot := hs
    rw [recordMethod_of_slot hs, recordMethod_of_slot hs']
  | none =>
    have hs' : ({ r with totals } : Registry).slots[keyOf { r with totals } method]? = none := hs
    rw [recordMethod_of_no_slot hs, recordMethod_of_no_slot hs']
    rfl

theorem recordAll_methods_setTotals (r : Registry) (totals : Totals) (methods : List MethodRecord) :
    recordAll { r with totals } (methods.map Event.method) =
      { r.recordAll (methods.map Event.method) with totals } := by
  induction methods generalizing r with
  | nil => rfl
  | cons method methods ih =>
    have hh := ih (r.recordMethod method)
    rw [← recordMethod_setTotals] at hh
    exact hh

/-- The declarations among some calls count in the totals and nowhere else. -/
theorem recordAll_eq_methods (r : Registry) (calls : List Event) :
    r.recordAll calls =
      { r.recordAll ((calls.filterMap Event.record?).map Event.method) with
        totals := (r.recordAll calls).totals } := by
  induction calls generalizing r with
  | nil => rfl
  | cons call calls ih =>
    cases call with
    | method method => exact ih (r.recordMethod method)
    | declaration conforming =>
      have hh := ih (r.recordDeclaration conforming)
      have hr : r.recordDeclaration conforming =
          { r with totals := (r.recordDeclaration conforming).totals } := rfl
      rw [hr, recordAll_methods_setTotals, ← hr] at hh
      exact hh

theorem recordAll_eq_of_interleaving (r : Registry) {calls calls' : List Event}
    (hm : calls.filterMap Event.record? = calls'.filterMap Event.record?)
    (hd : (calls.filterMap Event.conforming?).Perm (calls'.filterMap Event.conforming?)) :
    r.recordAll calls = r.recordAll calls' := by
  have ht : (r.recordAll calls).totals = (r.recordAll calls').totals := by
    rw [totals_recordAll, totals_recordAll, hd.length_eq, hd.count_eq]
  rw [recordAll_eq_methods r calls, recordAll_eq_methods r calls', hm, ht]

end MethodSurvey.Registry
