import MethodSurvey.Proofs.Files.Sources

/-! The order of a listing. It is decided by the names alone, so the order in which a directory
yields its entries has no influence on it. -/

namespace MethodSurvey

namespace FileName

/-- Whether a name is UTF-8 and ends so. -/
def endsIn (name : FileName) (ending : String) : Bool :=
  match Text.Utf8.decode? name with
  | some text => ending.toList.isSuffixOf text
  | none => false

/-- The order of a listing: Java before Kotlin, and names of one language by their bytes. -/
def Precedes (a b : FileName) : Prop :=
  (a.endsIn ".java" = true ∧ b.endsIn ".kt" = true) ∨
    ∃ ending ∈ [".java", ".kt"], a.endsIn ending = true ∧ b.endsIn ending = true ∧ a < b

theorem isSource_iff_endsIn (name : FileName) :
    name.isSource = true ↔ name.endsIn ".java" = true ∨ name.endsIn ".kt" = true := by
  rw [isSource, endsIn, endsIn]
  cases Text.Utf8.decode? name <;> simp

theorem endsIn_of_ofFileName? {name : FileName} {language : Language}
    (h : Language.ofFileName? name = some language) : name.endsIn language.extension = true := by
  obtain ⟨text, ht, hl⟩ := Option.bind_eq_some_iff.mp h
  rw [endsIn, ht]
  have hends := List.find?_some hl
  exact hends

end FileName

namespace Language

theorem sourceNames_eq_of_perm {names names' : List FileName} (h : names.Perm names') :
    sourceNames names = sourceNames names' := by
  rw [sourceNames, sourceNames]
  congr 1
  funext language
  exact mergeSort_eq_of_perm (h.filter _)

/-- Names that come in order are listed as they come. -/
theorem sourceNames_of_pairwise {names : List FileName} (h : names.Pairwise (· ≤ ·)) :
    sourceNames names =
      all.flatMap fun language => names.filter fun name => ofFileName? name = some language := by
  rw [sourceNames]
  congr 1
  funext language
  exact List.mergeSort_of_pairwise ((h.filter _).imp decide_eq_true)

theorem pairwise_lt_mergeSort {names : List FileName} (h : names.Nodup) :
    (names.mergeSort fun a b => a ≤ b).Pairwise (· < ·) := by
  have hle := List.pairwise_mergeSort' (· ≤ ·) names
  have hne : (names.mergeSort fun a b => a ≤ b).Nodup := (List.mergeSort_perm _ _).nodup_iff.mpr h
  exact (hle.and hne).imp fun h => Std.lt_of_le_of_ne h.1 h.2

theorem pairwise_precedes_sourceNames {names : List FileName} (h : names.Nodup) :
    (sourceNames names).Pairwise FileName.Precedes := by
  have hends (language : Language) {name : FileName}
      (hn : name ∈ (names.filter fun name => ofFileName? name = some language).mergeSort
        fun a b => a ≤ b) : name.endsIn language.extension = true :=
    FileName.endsIn_of_ofFileName?
      (of_decide_eq_true (List.mem_filter.mp (List.mem_mergeSort.mp hn)).2)
  refine List.pairwise_flatMap.mpr ⟨fun language _ => ?_, ?_⟩
  · refine (pairwise_lt_mergeSort (h.filter _)).imp_of_mem fun ha hb hlt => .inr ?_
    exact ⟨language.extension, by cases language <;> decide, hends _ ha, hends _ hb, hlt⟩
  · refine List.pairwise_pair.mpr fun a ha b hb => .inl ?_
    exact ⟨hends .java ha, hends .kotlin hb⟩

end Language

namespace Tree

/-- The same tree with its entries in another order. -/
structure Reordered (t t' : Tree) : Prop where
  entries : t'.entries.Perm t.entries
  base : t'.base = t.base

theorem Reordered.refl (t : Tree) : t.Reordered t := ⟨.refl _, rfl⟩

theorem Reordered.reverse (t : Tree) : t.Reordered { t with entries := t.entries.reverse } :=
  ⟨List.reverse_perm _, rfl⟩

theorem lookup_eq_of_perm {entries entries' : List (Location × Entry)}
    (h : entries.Perm entries') (hnd : (entries.map Prod.fst).Nodup) (location : Location) :
    entries.lookup location = entries'.lookup location := by
  induction h with
  | nil => rfl
  | cons e _ ih =>
    rw [List.lookup_cons, List.lookup_cons, ih (List.nodup_cons.mp hnd).2]
  | swap e e' entries =>
    obtain ⟨l, entry⟩ := e
    obtain ⟨l', entry'⟩ := e'
    have hne : l' ≠ l := fun he => (List.nodup_cons.mp hnd).1 (he ▸ List.mem_cons_self)
    by_cases hl : location = l
    · have hother : (location == l') = false := beq_eq_false_iff_ne.mpr (hl ▸ hne.symm)
      simp only [List.lookup_cons, hother]
    · have hother : (location == l) = false := beq_eq_false_iff_ne.mpr hl
      simp only [List.lookup_cons, hother]
  | trans h _ ih ih' =>
    exact (ih hnd).trans (ih' ((h.map Prod.fst).nodup_iff.mp hnd))

variable {t t' : Tree}

theorem walkWith_congr (hentry : ∀ location, t.entry? location = t'.entry? location)
    {follow follow' : Location → List FileName → Except Fault Place}
    (hfollow : ∀ here steps, follow here steps = follow' here steps)
    (here : Location) (steps : List FileName) :
    t.walkWith follow here steps = t'.walkWith follow' here steps := by
  induction steps generalizing here with
  | nil => rfl
  | cons step steps ih =>
    simp only [walkWith, ih, hentry, hfollow]

theorem walk_congr (hentry : ∀ location, t.entry? location = t'.entry? location) (links : Nat)
    (here : Location) (steps : List FileName) :
    t.walk links here steps = t'.walk links here steps := by
  induction links generalizing here steps with
  | zero => exact walkWith_congr hentry (fun _ _ => rfl) here steps
  | succ links ih => exact walkWith_congr hentry ih here steps

namespace Reordered

theorem entry_eq (h : t.Reordered t') (ht : t.WellFormed) (location : Location) :
    t.entry? location = t'.entry? location := by
  unfold entry?
  rw [lookup_eq_of_perm h.entries.symm ht.distinct]

theorem place_eq (h : t.Reordered t') (ht : t.WellFormed) (p : Path) : t.place p = t'.place p := by
  simp only [place, start, h.base, walk_congr (h.entry_eq ht)]

theorem namesIn_perm (h : t.Reordered t') (location : Location) :
    (t'.namesIn location).Perm (t.namesIn location) :=
  h.entries.filterMap _

theorem sourceFiles_eq (h : t.Reordered t') (ht : t.WellFormed) (directory : Path) :
    t.sourceFiles directory = t'.sourceFiles directory := by
  have hfile (p : Path) : t.isFile p = t'.isFile p := by rw [isFile, isFile, h.place_eq ht]
  rw [sourceFiles, sourceFiles, h.place_eq ht]
  split
  next location _ =>
    have hnames := (h.namesIn_perm location).filter fun name => t'.isFile (directory.join name)
    simp only [hfile, Language.sourceNames_eq_of_perm hnames]
  next => rfl

end Reordered

/-- The listing of a directory holds each of its entries that is a source file exactly once and
nothing else, in the one order that the names decide, whatever the order of the entries. -/
theorem sourceFiles_canonical (ht : t.WellFormed) {directory : Path} {location : Location}
    (hp : t.place directory = .ok (.directory location))
    (hs : directory.isStandardInput = false) :
    ∃ names : List FileName,
      (∀ t', t.Reordered t' → t'.sourceFiles directory = .ok (names.map directory.join)) ∧
      (∀ name ∈ names, (directory.join name).fileName? = some name) ∧
      names.Nodup ∧
      (∀ name, name ∈ names ↔ name ∈ t.namesIn location ∧
        t.isFile (directory.join name) = true ∧
        (name.endsIn ".java" = true ∨ name.endsIn ".kt" = true)) ∧
      names.Pairwise FileName.Precedes := by
  let files := (t.namesIn location).filter fun name => t.isFile (directory.join name)
  have hnd : files.Nodup := (nodup_namesIn ht location).filter _
  refine ⟨Language.sourceNames files, ?_, ?_, Language.nodup_sourceNames hnd, ?_,
    Language.pairwise_precedes_sourceNames hnd⟩
  · intro t' h
    rw [← h.sourceFiles_eq ht, sourceFiles, hp, hs]
    rfl
  · intro name hn
    obtain ⟨hname, hlanguage⟩ := Language.mem_sourceNames_iff.mp hn
    have hslash := slashFree_namesIn ht location name (List.mem_of_mem_filter hname)
    exact Path.fileName?_join directory (Language.proper_of_ofFileName? hlanguage hslash)
  · intro name
    rw [Language.mem_sourceNames_iff, ← FileName.isSource_eq, FileName.isSource_iff_endsIn,
      List.mem_filter, and_assoc]

/-- A directory with a link to a file, a link to nothing, a directory that is named like a
source, a name that is not UTF-8 and names in which both endings stand. -/
def cluttered : Tree :=
  Tree.ofEntries
    [(.ofString "src/Z.java", .file { bytes := [] }),
      (.ofString "src/a.kt", .link (.ofString "b.java.kt")),
      (.ofString "src/b.java.kt", .file { bytes := [] }),
      (.ofString "src/d.kt", .directory),
      (.ofString "src/lost.java", .link (.ofString "gone")),
      (.ofString "src/z.kt.java", .file { bytes := [] }),
      (⟨(Path.ofString "src/").bytes ++ 0xFF :: (Path.ofString ".java").bytes⟩,
        .file { bytes := [] })]

theorem sourceFiles_cluttered_reversed :
    let directory := Path.ofString "src"
    let reversed : Tree := { cluttered with entries := cluttered.entries.reverse }
    cluttered.place directory = .ok (.directory directory.steps) ∧
      directory.isStandardInput = false ∧
      reversed.sourceFiles directory =
        .ok (["src/Z.java", "src/z.kt.java", "src/a.kt", "src/b.java.kt"].map Path.ofString) := by
  intro directory reversed
  have hplace : cluttered.place directory = .ok (.directory directory.steps) := by decide +kernel
  have hstandard : directory.isStandardInput = false := by decide +kernel
  have hwell : cluttered.WellFormed := wellFormed_ofEntries _
  have hordered : ((cluttered.namesIn directory.steps).filter fun name =>
      cluttered.isFile (directory.join name)).Pairwise (· ≤ ·) := by
    decide +kernel
  obtain ⟨names, hlisted, -⟩ := sourceFiles_canonical hwell hplace hstandard
  refine ⟨hplace, hstandard, ?_⟩
  rw [hlisted reversed (.reverse _), ← hlisted cluttered (.refl _), sourceFiles, hplace]
  simp only [hstandard, Language.sourceNames_of_pairwise hordered]
  decide +kernel

end Tree

end MethodSurvey
