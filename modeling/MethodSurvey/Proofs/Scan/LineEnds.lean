import Mathlib.Data.List.TakeWhile
import MethodSurvey.Proofs.Text.LineFeeds
import MethodSurvey.Scan.Source

/-! A scan sees its lines trimmed, so that carriage returns do not matter and the bytes of
a file scan like their text. -/

namespace MethodSurvey

theorem Text.isBlank_return : isBlank '\r' = true := by
  decide

theorem Text.trim_append_of_blank (s : List Char) {t : List Char} (ht : ∀ c ∈ t, isBlank c = true) :
    trim (s ++ t) = trim s := by
  by_cases hs : (s.dropWhile isBlank).isEmpty = true
  · have hd : t.dropWhile isBlank = [] := List.dropWhile_eq_nil_iff.mpr ht
    have he : s.dropWhile isBlank = [] := List.isEmpty_iff.mp hs
    simp only [trim, trimStart, List.dropWhile_append, he, List.isEmpty_nil, if_true, hd]
  · have hr : ∀ c ∈ t.reverse, isBlank c = true := fun c hc => ht c (List.mem_reverse.mp hc)
    simp only [trim, trimStart, trimEnd, List.dropWhile_append, hs, Bool.false_eq_true, if_false,
      List.reverse_append, List.dropWhile_append_of_pos hr]

theorem Text.trim_blank_append {s : List Char} (hs : ∀ c ∈ s, isBlank c = true) (t : List Char) :
    trim (s ++ t) = trim t := by
  rw [trim, trimStart, List.dropWhile_append_of_pos hs, trim, trimStart]

theorem Text.mem_of_mem_trim {s : List Char} {c : Char} (h : c ∈ trim s) : c ∈ s := by
  have hend := List.dropWhile_subset _ (List.mem_reverse.mp h)
  exact List.dropWhile_subset _ (List.mem_reverse.mp hend)

namespace Scanner

variable (profile : Profile) (file : String)

theorem step_eq_of_trim_eq (s : Scanner) {line line' : List Char}
    (h : Text.trim line = Text.trim line') :
    s.step profile file line = s.step profile file line' := by
  have hc : codeLine s.insideComment line = codeLine s.insideComment line' := by
    simp only [codeLine, h]
  simp only [step, hc]

theorem scan_eq_of_trim_eq (s : Scanner) {lines lines' : List (List Char)}
    (h : lines.map Text.trim = lines'.map Text.trim) :
    scan profile file s lines = scan profile file s lines' := by
  induction lines generalizing s lines' with
  | nil =>
    obtain rfl : lines' = [] := List.map_eq_nil_iff.mp h.symm
    rfl
  | cons line lines ih =>
    obtain ⟨line', rest, rfl, hl, hr⟩ := List.map_eq_cons_iff.mp h.symm
    simp only [scan, step_eq_of_trim_eq profile file s hl, ih _ hr.symm]

end Scanner

namespace Source

theorem trim_dropReturn (line : List Char) : Text.trim (dropReturn line) = Text.trim line := by
  by_cases hr : line.getLast? = some '\r'
  · obtain ⟨start, rfl⟩ := List.getLast?_eq_some_iff.mp hr
    have hb : ∀ c ∈ ['\r'], Text.isBlank c = true := by
      intro c hc
      rw [List.mem_singleton.mp hc]
      exact Text.isBlank_return
    rw [dropReturn, if_pos hr, List.dropLast_concat, Text.trim_append_of_blank start hb]
  · rw [dropReturn, if_neg hr]

theorem trim_decodeLine (bytes : List UInt8) :
    Text.trim (decodeLine bytes) = Text.trim (Text.Utf8.decodeLossy bytes) := by
  let text := Text.Utf8.decodeLossy bytes
  have hb : ∀ c ∈ (text.reverse.takeWhile (· == '\r')).reverse, Text.isBlank c = true := by
    intro c hc
    have hr := List.mem_takeWhile_imp (List.mem_reverse.mp hc)
    rw [beq_iff_eq.mp hr]
    exact Text.isBlank_return
  have ht : decodeLine bytes ++ (text.reverse.takeWhile (· == '\r')).reverse = text := by
    rw [decodeLine, ← List.reverse_append, List.takeWhile_append_dropWhile, List.reverse_reverse]
  rw [← Text.trim_append_of_blank (decodeLine bytes) hb, ht]

theorem trim_linesOfText (text : List Char) :
    (linesOfText text).map Text.trim = (Text.allPieces '\n' text).map Text.trim := by
  simp [linesOfText, Text.allPieces, trim_dropReturn, Function.comp_def]

theorem trim_linesOfStream (bytes : List UInt8) :
    (linesOfStream { bytes }).map Text.trim =
      (Text.allPieces '\n' (Text.Utf8.decodeLossy bytes)).map Text.trim := by
  simp [linesOfStream, Text.Utf8.allPieces_decodeLossy, trim_decodeLine, Function.comp_def]

/-- The bytes of a file, well-formed or not and with line ends of any kind, scan like the
text that they decode to. -/
theorem scanStream_eq_scanText (profile : Profile) (file : String) (bytes : List UInt8) :
    scanStream profile file { bytes } =
      { events := (scanText profile file (Text.Utf8.decodeLossy bytes)).1
        outcome := .ok (scanText profile file (Text.Utf8.decodeLossy bytes)).2 } := by
  have hl : (linesOfStream { bytes }).map Text.trim =
      (linesOfText (Text.Utf8.decodeLossy bytes)).map Text.trim := by
    rw [trim_linesOfStream, trim_linesOfText]
  simp only [scanStream, scanText, Scanner.scan_eq_of_trim_eq profile file {} hl]

end Source

end MethodSurvey
