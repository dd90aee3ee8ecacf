import Mathlib.Data.List.Forall2
import MethodSurvey.Proofs.Survey.Files

/-! Files may be scanned each on its own and be merged afterwards: the registry is the one
that scanning them one after another into it gives. -/

namespace MethodSurvey

/-- What one scan reported, the two kinds of events apart. -/
structure Tally where
  declarations : List Bool := []
  methods : List MethodRecord := []
  deriving DecidableEq, Repr

namespace Tally

def record (tally : Tally) : Event → Tally
  | .declaration conforming =>
    { tally with declarations := tally.declarations ++ [conforming] }
  | .method method => { tally with methods := tally.methods ++ [method] }

def recordAll (tally : Tally) (events : List Event) : Tally :=
  events.foldl record tally

/-- The tally of a file, also of one that cannot be scanned to its end. -/
def ofFile (t : Tree) (style : DeclarationStyle) (p : Path) : Tally :=
  recordAll {} (t.scanFile style p).events

def append (first second : Tally) : Tally where
  declarations := first.declarations ++ second.declarations
  methods := first.methods ++ second.methods

/-- All tallies as one, in their order. -/
def merge (tallies : List Tally) : Tally :=
  tallies.foldr append {}

/-- Calls that pass a tally on: its methods in order and its declarations, the two kinds
mixed in any way. -/
structure Replays (tally : Tally) (calls : List Event) : Prop where
  methods : calls.filterMap Event.record? = tally.methods
  declarations : (calls.filterMap Event.conforming?).Perm tally.declarations

theorem append_assoc (first second third : Tally) :
    (first.append second).append third = first.append (second.append third) := by
  simp only [append, List.append_assoc]

theorem record_eq (tally : Tally) (event : Event) :
    tally.record event = tally.append ⟨event.conforming?.toList, event.record?.toList⟩ := by
  cases event <;> simp [record, append, Event.conforming?, Event.record?]

theorem recordAll_eq (tally : Tally) (events : List Event) :
    tally.recordAll events =
      tally.append ⟨events.filterMap Event.conforming?, events.filterMap Event.record?⟩ := by
  induction events generalizing tally with
  | nil => simp [recordAll, append]
  | cons event events ih =>
    rw [recordAll, List.foldl_cons, ← recordAll, ih, record_eq, append_assoc]
    cases event <;> rfl

theorem ofFile_eq (t : Tree) (style : DeclarationStyle) (p : Path) :
    ofFile t style p = ⟨(t.scanFile style p).declarations, (t.scanFile style p).methods⟩ := by
  rw [ofFile, recordAll_eq]
  rfl

theorem merge_ofFile (t : Tree) (style : DeclarationStyle) (files : List Path) :
    merge (files.map (ofFile t style)) =
      ⟨(Survey.reported t style files).filterMap Event.conforming?,
        (Survey.reported t style files).filterMap Event.record?⟩ := by
  induction files with
  | nil => rfl
  | cons p files ih =>
    rw [List.map_cons, merge, List.foldr_cons, ← merge, ih, ofFile_eq, Survey.reported_cons,
      List.filterMap_append, List.filterMap_append]
    rfl

theorem Replays.append {first second : Tally} {calls calls' : List Event}
    (h : first.Replays calls) (h' : second.Replays calls') :
    (first.append second).Replays (calls ++ calls') := by
  constructor
  · rw [List.filterMap_append, h.methods, h'.methods]
    rfl
  · rw [List.filterMap_append]
    exact h.declarations.append h'.declarations

theorem Replays.merge {tallies : List Tally} {replays : List (List Event)}
    (h : List.Forall₂ Replays tallies replays) : (merge tallies).Replays replays.flatten := by
  induction h with
  | nil => exact ⟨rfl, List.Perm.refl _⟩
  | cons h _ ih => exact h.append ih

end Tally

namespace Survey

theorem registry_eq_of_merged_replay {t : Tree} {style : DeclarationStyle} {files : List Path}
    (registry : Registry) {calls : List Event}
    (h : (Tally.merge (files.map (Tally.ofFile t style))).Replays calls) :
    (ofFiles t style registry files).registry = registry.recordAll calls := by
  have hr := h
  rw [Tally.merge_ofFile] at hr
  rw [registry_ofFiles]
  exact registry.recordAll_eq_of_interleaving hr.methods.symm hr.declarations.symm

/-- Whatever the registry holds before, scanning files into it one after another leaves it as
passing on their tallies does: the tally of each file in turn, its two kinds of events mixed
in any way, or all tallies merged and mixed. -/
theorem registry_ofFiles_eq_replay (t : Tree) (style : DeclarationStyle) (registry : Registry)
    (files : List Path) :
    let tallies := files.map (Tally.ofFile t style)
    (∀ replays, List.Forall₂ Tally.Replays tallies replays →
        (ofFiles t style registry files).registry = replays.foldl Registry.recordAll registry) ∧
      ∀ calls, (Tally.merge tallies).Replays calls →
        (ofFiles t style registry files).registry = registry.recordAll calls := by
  intro tallies
  refine ⟨fun replays h => ?_, fun calls h => registry_eq_of_merged_replay registry h⟩
  rw [registry_eq_of_merged_replay registry (Tally.Replays.merge h), Registry.recordAll_flatten]

/-- The method and the two declarations before the fault are passed on, over a registry that
knows the method already. -/
theorem registry_of_broken_off_file :
    let files := ["A.java", "c.txt", "b.kt"].map Path.ofString
    let registry := Registry.recordAll { keying := .name } [.method ⟨"run", "Z.java", 7⟩]
    let replays : List (List Event) :=
      [[.method ⟨"run", "A.java", 0⟩, .declaration true], [],
        [.declaration true, .declaration false, .method ⟨"run", "b.kt", 1⟩]]
    let calls : List Event :=
      [.method ⟨"run", "A.java", 0⟩, .method ⟨"run", "b.kt", 1⟩, .declaration false,
        .declaration true, .declaration true]
    (ofFiles brokenOff .leading registry files).registry =
        replays.foldl Registry.recordAll registry ∧
      (ofFiles brokenOff .leading registry files).registry = registry.recordAll calls := by
  intro files registry replays calls
  have htallies : files.map (Tally.ofFile brokenOff .leading) =
      [⟨[true], [⟨"run", "A.java", 0⟩]⟩, {}, ⟨[true, false], [⟨"run", "b.kt", 1⟩]⟩] := by
    decide +kernel
  have hreplays : List.Forall₂ Tally.Replays (files.map (Tally.ofFile brokenOff .leading)) replays := by
    rw [htallies]
    exact .cons ⟨by decide, by decide⟩ (.cons ⟨by decide, by decide⟩
      (.cons ⟨by decide, by decide⟩ .nil))
  have hcalls : (Tally.merge (files.map (Tally.ofFile brokenOff .leading))).Replays calls := by
    rw [htallies]
    exact ⟨by decide, by decide⟩
  have hh := registry_ofFiles_eq_replay brokenOff .leading registry files
  exact ⟨hh.1 replays hreplays, hh.2 calls hcalls⟩

end Survey

end MethodSurvey
