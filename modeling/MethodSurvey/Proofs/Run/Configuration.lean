import MethodSurvey.ConfigFile

/-! When a configuration loads: it is a file that can be read to its end, it is UTF-8, it
parses and it does not ask for a ranking without rows. A directory may have none. -/

namespace MethodSurvey

theorem Stream.contents_eq_ok_iff {stream : Stream} {bytes : List UInt8} :
    stream.contents = .ok bytes ↔ stream = { bytes } := by
  rcases stream with ⟨held, fault⟩
  cases fault with
  | none => simp [contents]
  | some fault => simp [contents]

/-- A directory can be opened, but has no contents. -/
theorem Tree.contents_openFile_eq_ok_iff {t : Tree} {path : Path} {bytes : List UInt8} :
    (t.openFile path).bind Stream.contents = .ok bytes ↔
      t.place path = .ok (.file { bytes }) := by
  cases hp : t.place path with
  | error fault =>
    have ho : t.openFile path = .error fault := by
      rw [openFile, hp]
      rfl
    rw [ho]
    exact iff_of_false (fun h => by cases h) (fun h => by cases h)
  | ok place =>
    cases place with
    | file content =>
      have ho : t.openFile path = .ok content := by
        rw [openFile, hp]
        rfl
      rw [ho, Except.ok.injEq, Place.file.injEq]
      exact Stream.contents_eq_ok_iff
    | directory location =>
      have ho : t.openFile path = .ok { bytes := [], fault := some .isADirectory } := by
        rw [openFile, hp]
        rfl
      rw [ho]
      exact iff_of_false (fun h => by cases h) (fun h => by cases h)

namespace ConfigFile

/-- At the path stands a configuration with these preferences. -/
def Holds (t : Tree) (path : Path) (p : Preferences) : Prop :=
  ∃ bytes text, t.place path = .ok (.file { bytes }) ∧ Text.Utf8.decode? bytes = some text ∧
    Config.parse? text = some p ∧ p.top? ≠ some 0

/-- What is taken for the configuration of a run: the file that is named, which must hold one,
else the file of the directory, else nothing. -/
inductive Loads (t : Tree) (directory : Path) : Option Path → Option Preferences → Prop
  | named {path : Path} {p : Preferences} (h : Holds t path p) :
    Loads t directory (some path) (some p)
  | present {p : Preferences} (h : Holds t (directory.join name) p) :
    Loads t directory none (some p)
  | absent (h : t.isFile (directory.join name) = false) : Loads t directory none none

variable {t : Tree} {path title directory : Path} {p : Preferences}

theorem holds_iff_of_place {bytes : List UInt8} (hp : t.place path = .ok (.file { bytes })) :
    Holds t path p ↔ ∃ text, Text.Utf8.decode? bytes = some text ∧
      Config.parse? text = some p ∧ p.top? ≠ some 0 := by
  constructor
  · rintro ⟨bytes', text, hp', hrest⟩
    obtain rfl : bytes = bytes' := by simpa [hp] using hp'
    exact ⟨text, hrest⟩
  · rintro ⟨text, hrest⟩
    exact ⟨bytes, text, hp, hrest⟩

theorem load_of_contents {bytes : List UInt8}
    (hread : (t.openFile path).bind Stream.contents = .ok bytes) :
    load t path title = match Text.Utf8.decode? bytes with
      | none => .error (.unreadable title .notUtf8)
      | some text => match Config.parse? text with
        | none => .error (.malformed title)
        | some p => if p.top? = some 0 then .error .zeroLength else .ok p := by
  rw [load, hread]
  rfl

theorem load_of_fault {fault : Fault}
    (hread : (t.openFile path).bind Stream.contents = .error fault) :
    load t path title = .error (.unreadable title fault) := by
  rw [load, hread]
  rfl

theorem load_eq_ok_iff : load t path title = .ok p ↔ Holds t path p := by
  cases hread : (t.openFile path).bind Stream.contents with
  | error fault =>
    rw [load_of_fault hread]
    refine iff_of_false (fun h => by cases h) ?_
    rintro ⟨bytes, text, hp, -⟩
    have hok := Tree.contents_openFile_eq_ok_iff.mpr hp
    rw [hread] at hok
    cases hok
  | ok bytes =>
    rw [holds_iff_of_place (Tree.contents_openFile_eq_ok_iff.mp hread), load_of_contents hread]
    cases hdecode : Text.Utf8.decode? bytes with
    | none => simp
    | some text =>
      cases hparse : Config.parse? text with
      | none => simp [hparse]
      | some q =>
        by_cases htop : q.top? = some 0
        · simp only [hparse, htop, if_true, Option.some.injEq, exists_eq_left']
          refine iff_of_false (fun h => by cases h) ?_
          rintro ⟨rfl, hne⟩
          exact hne htop
        · simp only [hparse, htop, if_false, Option.some.injEq, exists_eq_left', Except.ok.injEq]
          refine ⟨fun h => ⟨h, h ▸ htop⟩, fun h => h.1⟩

theorem map_load_eq_ok_iff {found : Option Preferences} :
    some <$> load t path title = .ok found ↔ ∃ p, found = some p ∧ Holds t path p := by
  cases hl : load t path title with
  | error e =>
    refine iff_of_false (fun h => by cases h) ?_
    rintro ⟨p, -, hp⟩
    rw [load_eq_ok_iff.mpr hp] at hl
    cases hl
  | ok q =>
    constructor
    · intro h
      cases h
      exact ⟨q, rfl, load_eq_ok_iff.mp hl⟩
    · rintro ⟨p, rfl, hp⟩
      rw [load_eq_ok_iff.mpr hp] at hl
      cases hl
      rfl

theorem Holds.isFile (h : Holds t path p) : t.isFile path = true := by
  obtain ⟨bytes, text, hp, -⟩ := h
  rw [Tree.isFile, hp]

/-- A configuration is found exactly where one loads, whatever messages call its place. -/
theorem find_eq_ok_iff {named? : Option Path} {found : Option Preferences} :
    find t named? directory title = .ok found ↔ Loads t directory named? found := by
  cases named? with
  | some path =>
    rw [find, map_load_eq_ok_iff]
    constructor
    · rintro ⟨p, rfl, hp⟩
      exact .named hp
    · rintro ⟨hp⟩
      exact ⟨_, rfl, hp⟩
  | none =>
    by_cases hfile : t.isFile (directory.join name) = true
    · rw [find, if_pos hfile, map_load_eq_ok_iff]
      constructor
      · rintro ⟨p, rfl, hp⟩
        exact .present hp
      · intro h
        cases h with
        | present hp => exact ⟨_, rfl, hp⟩
        | absent hnone => exact absurd hfile (hnone ▸ Bool.false_ne_true)
    · rw [find, if_neg hfile]
      constructor
      · intro h
        cases h
        exact .absent (Bool.eq_false_iff.mpr hfile)
      · intro h
        cases h with
        | present hp => exact absurd hp.isFile hfile
        | absent hnone => rfl

/-- No two configurations are taken for one run. -/
theorem Loads.unique {named? : Option Path} {found found' : Option Preferences}
    (h : Loads t directory named? found) (h' : Loads t directory named? found') :
    found = found' := by
  have hfind : find t named? directory directory = .ok found := find_eq_ok_iff.mpr h
  have hfind' : find t named? directory directory = .ok found' := find_eq_ok_iff.mpr h'
  exact Except.ok.inj (hfind.symm.trans hfind')

end ConfigFile

end MethodSurvey
