import Mathlib.Data.List.Nodup
import MethodSurvey.Proofs.Files.Names
import MethodSurvey.Tree

/-! Trees in which each location has one entry and no name holds a slash. Every tree that is
put together entry by entry is one. -/

namespace MethodSurvey

/-- Names, or the steps of a path, of which none holds a slash. -/
def SlashFree (names : List FileName) : Prop :=
  ∀ name ∈ names, Path.slash ∉ name

theorem SlashFree.append {names later : List FileName} (h : SlashFree names)
    (h' : SlashFree later) : SlashFree (names ++ later) := by
  intro name hn
  rcases List.mem_append.mp hn with hn | hn
  · exact h name hn
  · exact h' name hn

theorem SlashFree.singleton {name : FileName} (h : Path.slash ∉ name) : SlashFree [name] := by
  intro name' hn
  rw [List.mem_singleton.mp hn]
  exact h

theorem SlashFree.dropLast {names : List FileName} (h : SlashFree names) :
    SlashFree names.dropLast :=
  fun name hn => h name (List.dropLast_subset _ hn)

theorem slashFree_steps (p : Path) : SlashFree p.steps :=
  fun _ h => Path.slash_not_mem_of_mem_steps h

theorem slashFree_names (p : Path) : SlashFree p.names :=
  fun _ h => Path.slash_not_mem_of_mem_steps (List.mem_of_mem_filter h)

namespace Tree

structure WellFormed (t : Tree) : Prop where
  distinct : (t.entries.map Prod.fst).Nodup
  slashFree : ∀ location ∈ t.entries.map Prod.fst, SlashFree location
  base : SlashFree t.base

variable {t : Tree}

theorem slashFree_walkWith {follow : Location → List FileName → Except Fault Place}
    (hfollow : ∀ here steps location, SlashFree here → SlashFree steps →
      follow here steps = .ok (.directory location) → SlashFree location)
    {here location : Location} {steps : List FileName} (hhere : SlashFree here)
    (hsteps : SlashFree steps) (h : t.walkWith follow here steps = .ok (.directory location)) :
    SlashFree location := by
  -- On the steps alone: behind a link the walk is `follow`, for which the claim is assumed.
  induction steps generalizing here with
  | nil =>
    rw [walkWith] at h
    cases h
    exact hhere
  | cons step steps ih =>
    have hstep : SlashFree (here ++ [step]) :=
      hhere.append (SlashFree.singleton (hsteps step List.mem_cons_self))
    have hrest : SlashFree steps := fun name hn => hsteps name (List.mem_cons_of_mem _ hn)
    rw [walkWith] at h
    by_cases hstay : step = [] ∨ step = Path.here
    · rw [if_pos hstay] at h
      exact ih hhere hrest h
    rw [if_neg hstay] at h
    by_cases hup : step = Path.parent
    · rw [if_pos hup] at h
      exact ih hhere.dropLast hrest h
    rw [if_neg hup] at h
    cases he : t.entry? (here ++ [step]) with
    | none => simp [he] at h
    | some entry =>
      cases entry with
      | directory =>
        simp only [he] at h
        exact ih hstep hrest h
      | file content =>
        simp only [he] at h
        split at h <;> cases h
      | link target =>
        simp only [he] at h
        refine hfollow _ _ _ ?_ ((slashFree_steps target).append hrest) h
        split
        · exact fun _ hn => absurd hn List.not_mem_nil
        · exact hhere

theorem slashFree_walk {links : Nat} {here location : Location} {steps : List FileName}
    (hhere : SlashFree here) (hsteps : SlashFree steps)
    (h : t.walk links here steps = .ok (.directory location)) : SlashFree location := by
  induction links generalizing here steps location with
  | zero => exact slashFree_walkWith (fun _ _ _ _ _ hf => by cases hf) hhere hsteps h
  | succ links ih =>
    exact slashFree_walkWith (fun _ _ _ hhere hsteps hf => ih hhere hsteps hf) hhere hsteps h

namespace WellFormed

theorem set (h : t.WellFormed) {location : Location} (hl : SlashFree location) (entry : Entry) :
    (t.set location entry).WellFormed := by
  rw [Tree.set]
  by_cases ha : t.entries.any (·.1 = location) = true
  · have hm : (t.entries.map fun e => if e.1 = location then (location, entry) else e).map
        Prod.fst = t.entries.map Prod.fst := by
      rw [List.map_map]
      refine List.map_congr_left fun e _ => ?_
      by_cases he : e.1 = location <;> simp [he]
    rw [if_pos ha]
    exact ⟨hm ▸ h.distinct, hm ▸ h.slashFree, h.base⟩
  · have hm : (t.entries ++ [(location, entry)]).map Prod.fst =
        t.entries.map Prod.fst ++ [location] := by
      rw [List.map_append]
      rfl
    have hn : location ∉ t.entries.map Prod.fst := by simpa using ha
    rw [if_neg ha]
    refine ⟨?_, ?_, h.base⟩
    · rw [hm]
      exact List.nodup_append.mpr ⟨h.distinct, List.nodup_singleton _,
        fun l hmem l' hmem' he => hn (List.mem_singleton.mp hmem' ▸ he ▸ hmem)⟩
    · intro l hmem
      rw [hm] at hmem
      rcases List.mem_append.mp hmem with hmem | hmem
      · exact h.slashFree l hmem
      · exact List.mem_singleton.mp hmem ▸ hl

theorem enterDirectory (h : t.WellFormed) {here : Location} {name : FileName}
    (hhere : SlashFree here) (hname : Path.slash ∉ name) :
    (t.enterDirectory here name).1.WellFormed ∧ SlashFree (t.enterDirectory here name).2 := by
  have hstep : SlashFree (here ++ [name]) := hhere.append (SlashFree.singleton hname)
  rw [Tree.enterDirectory]
  by_cases hup : name = Path.parent
  · rw [if_pos hup]
    exact ⟨h, hhere.dropLast⟩
  rw [if_neg hup]
  split
  · exact ⟨h.set hstep _, hstep⟩
  · split
    next location hw => exact ⟨h, slashFree_walk hhere (SlashFree.singleton hname) hw⟩
    next => exact ⟨h, hstep⟩
  · exact ⟨h, hstep⟩

theorem foldl_enterDirectory {names : List FileName} (h : t.WellFormed) {here : Location}
    (hhere : SlashFree here) (hnames : SlashFree names) :
    let reached := names.foldl (fun (t, here) name => t.enterDirectory here name) (t, here)
    reached.1.WellFormed ∧ SlashFree reached.2 := by
  induction names generalizing t here with
  | nil => exact ⟨h, hhere⟩
  | cons name names ih =>
    obtain ⟨ht, hl⟩ := h.enterDirectory hhere (hnames name List.mem_cons_self)
    exact ih ht hl fun n hn => hnames n (List.mem_cons_of_mem _ hn)

theorem insert (h : t.WellFormed) (p : Path) (entry : Entry) : (t.insert p entry).WellFormed := by
  rw [Tree.insert]
  split
  · exact h
  next name hlast =>
    have hname : Path.slash ∉ name := slashFree_names p name (List.mem_of_getLast? hlast)
    have hstart : SlashFree (t.start p) := by
      rw [start]
      split
      · exact fun _ hn => absurd hn List.not_mem_nil
      · exact h.base
    obtain ⟨ht, hl⟩ := h.foldl_enterDirectory hstart (slashFree_names p).dropLast
    exact ht.set (hl.append (SlashFree.singleton hname)) entry

end WellFormed

theorem wellFormed_ofEntries (entries : List (Path × Entry)) : (ofEntries entries).WellFormed := by
  have hfold : ∀ t : Tree, t.WellFormed →
      (entries.foldl (fun t e => t.insert e.1 e.2) t).WellFormed := by
    induction entries with
    | nil => exact fun _ h => h
    | cons e entries ih => exact fun t h => ih _ (h.insert e.1 e.2)
  refine hfold {} ⟨List.nodup_nil, ?_, ?_⟩
  · exact fun _ hn => absurd hn List.not_mem_nil
  · exact fun _ hn => absurd hn List.not_mem_nil

end Tree

end MethodSurvey
