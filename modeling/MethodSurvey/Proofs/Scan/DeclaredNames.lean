import MethodSurvey.Proofs.Declaration.Places
import MethodSurvey.Proofs.Scan.Faults
import MethodSurvey.Proofs.Scan.LineEnds
import MethodSurvey.Proofs.Scan.Schedule

/-! The names of the methods that a scan gives out. Each is declared on a code line, and is a part
of it; since no line holds its line feed, no name has one. -/

namespace MethodSurvey

theorem Extent.exists_declared_of_mem_schedule {profile : Profile} {code : List (List Char)}
    {file : String} {m : MethodRecord} (h : Event.method m ∈ (schedule profile code file).flatten) :
    ∃ line ∈ code, profile.declaredName? line = some m.name.toList := by
  obtain ⟨events, hevents, hm⟩ := List.mem_flatten.mp h
  obtain ⟨j, -, rfl⟩ := List.mem_map.mp hevents
  rcases List.mem_append.mp hm with hm | hm
  · cases hd : declared? profile code j <;> simp [hd] at hm
  · obtain ⟨⟨name, complexity⟩, hclosed, hm⟩ := List.mem_map.mp hm
    obtain ⟨i, -, hclosed⟩ := List.mem_filterMap.mp hclosed
    obtain ⟨-, hname⟩ := Option.ite_none_right_eq_some.mp hclosed
    obtain ⟨declaredName, hd, hpair⟩ := Option.map_eq_some_iff.mp hname
    cases hpair
    cases hm
    obtain ⟨line, hline, hdeclared⟩ := Option.bind_eq_some_iff.mp hd
    exact ⟨line, List.mem_of_getElem? hline, by rw [hdeclared, String.toList_ofList]⟩

namespace Scanner

theorem codeLines_subset (inside : Bool) (lines : List (List Char)) :
    codeLines inside lines ⊆ lines.map Text.trim := by
  induction lines generalizing inside with
  | nil => exact List.Subset.refl []
  | cons line lines ih =>
    have hline : (codeLine inside line).1.toList ⊆ [Text.trim line] := by
      rw [codeLine]
      split <;> simp
    intro code hcode
    rcases List.mem_append.mp hcode with hcode | hcode
    · exact List.mem_cons.mpr (.inl (List.mem_singleton.mp (hline hcode)))
    · exact List.mem_cons_of_mem _ (ih _ hcode)

theorem exists_declared_of_mem_scan {profile : Profile} {file : String} {lines : List (List Char)}
    {m : MethodRecord} (h : Event.method m ∈ (scan profile file {} lines).2) :
    ∃ line ∈ lines, profile.declaredName? (Text.trim line) = some m.name.toList := by
  rw [(Extent.scan_eq_schedule profile file lines).2] at h
  obtain ⟨code, hcode, hdeclared⟩ := Extent.exists_declared_of_mem_schedule h
  obtain ⟨line, hline, rfl⟩ := List.mem_map.mp (codeLines_subset false lines hcode)
  exact ⟨line, hline, hdeclared⟩

end Scanner

namespace Source

open Declaration

theorem lineFeed_not_mem_trim {text piece : List Char} (h : piece ∈ Text.allPieces '\n' text) :
    '\n' ∉ Text.trim piece := by
  have hpiece := Text.not_mem_of_mem_pieces (Text.mem_pieces_of_mem_allPieces h)
  exact fun hc => hpiece (Text.mem_of_mem_trim hc)

theorem trim_linesOfStream_subset (stream : Stream) : (linesOfStream stream).map Text.trim ⊆
    (Text.allPieces '\n' (Text.Utf8.decodeLossy stream.bytes)).map Text.trim := by
  obtain ⟨bytes, fault⟩ := stream
  rw [← trim_linesOfStream]
  cases fault with
  | none => exact List.Subset.refl _
  | some fault => exact List.map_subset _ (linesOfStream_prefix_of_fault bytes fault).subset

/-- A name is a part of its line, and the line is a part of a text between two line feeds. -/
theorem lineFeed_not_mem_name {profile : Profile} {file : String} {lines : List (List Char)}
    {text : List Char} {m : MethodRecord}
    (hlines : lines.map Text.trim ⊆ (Text.allPieces '\n' text).map Text.trim)
    (h : Event.method m ∈ (Scanner.scan profile file {} lines).2) : '\n' ∉ m.name.toList := by
  obtain ⟨line, hline, hdeclared⟩ := Scanner.exists_declared_of_mem_scan h
  obtain ⟨before, gap, hplaced, -⟩ := exists_placed_of_declaredName? hdeclared
  obtain ⟨piece, hpiece, htrim⟩ := List.mem_map.mp (hlines (List.mem_map_of_mem hline))
  intro hc
  exact lineFeed_not_mem_trim hpiece (htrim ▸ hplaced.mem_line hc)

/-- A declared name stands in its line where its style looks for it, and the leading style declares
none where its offset is not that of a character in front of the first parenthesis. So no scan
gives out a name with a line feed, whether of a text or of a stream, broken off or not. -/
theorem declared_names_placed (profile : Profile) :
    (∀ line name, profile.declaredName? line = some name →
        ∃ before gap, Placed line before name gap ∧ Admits profile line before name gap) ∧
      (profile.style = .leading → ∀ line, profile.declaredName? line = none ↔
        Leading.opens profile.language line = false ∨
          ¬ Text.IsBoundary line (Leading.nameOffset profile.language line) ∨
          ¬ Leading.BeforeParen line (Leading.nameOffset profile.language line)) ∧
      (∀ file text, ∀ m, Event.method m ∈ (scanText profile file text).1 → '\n' ∉ m.name.toList) ∧
      ∀ file stream, ∀ m, Event.method m ∈ (scanStream profile file stream).events →
        '\n' ∉ m.name.toList := by
  refine ⟨fun line name => exists_placed_of_declaredName?, fun hstyle line => ?_,
    fun file text m hm => ?_, fun file stream m hm => ?_⟩
  · obtain ⟨language, style⟩ := profile
    obtain rfl : style = .leading := hstyle
    exact Leading.declaredName?_eq_none_iff
  · exact lineFeed_not_mem_name (fun _ hline => trim_linesOfText text ▸ hline) hm
  · exact lineFeed_not_mem_name (trim_linesOfStream_subset stream) hm

/-- A name may end in a blank. Behind the other return type stands a character of three bytes, and
the offset lies inside it. -/
theorem declared_names_placed_of_wide_characters :
    let profile : Profile := ⟨.java, .leading⟩
    let line := "public void größe (int x) \x7b".toList
    let cut := "public int名前(x) \x7b".toList
    let events := (scanText profile "A.java" (line ++ ['\r', '\n', '\x7d'])).1
    (∃ before gap, Placed line before "größe ".toList gap ∧
        Admits profile line before "größe ".toList gap) ∧
      ¬ Text.IsBoundary cut (Leading.nameOffset profile.language cut) ∧
      profile.declaredName? cut = none ∧
      Event.method ⟨"größe ", "A.java", 0⟩ ∈ events ∧ '\n' ∉ "größe ".toList := by
  intro profile line cut events
  obtain ⟨hplaced, hnone, htext, -⟩ := declared_names_placed profile
  have hdeclared : profile.declaredName? line = some "größe ".toList := by decide +kernel
  have hcut : ¬ Text.IsBoundary cut (Leading.nameOffset profile.language cut) := by
    decide +kernel
  have hmethod : Event.method ⟨"größe ", "A.java", 0⟩ ∈ events := by decide +kernel
  exact ⟨hplaced line _ hdeclared, hcut, (hnone rfl cut).mpr (.inr (.inl hcut)), hmethod,
    htext "A.java" _ _ hmethod⟩

end Source

end MethodSurvey
