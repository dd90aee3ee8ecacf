import MethodSurvey.Proofs.Scan.LineEnds
import MethodSurvey.Proofs.Text.Encoded

/-! How the lines of a file are laid out does not matter to a scan: neither the blanks before
and after a line nor a carriage return in front of its line feed. -/

namespace MethodSurvey.Source

/-- A line with the blanks that are put around it, and whether it ends in a carriage return
and a line feed or in a line feed alone. -/
structure LaidLine where
  text : List Char
  before : List Char
  after : List Char
  carriageReturn : Bool
  lineFeed_not_mem_text : '\n' ∉ text
  isBlank_before : ∀ c ∈ before, Text.isBlank c = true
  lineFeed_not_mem_before : '\n' ∉ before
  isBlank_after : ∀ c ∈ after, Text.isBlank c = true
  lineFeed_not_mem_after : '\n' ∉ after

namespace LaidLine

variable (l : LaidLine)

def plain : List Char := l.text ++ ['\n']

def lineEnd : List Char := if l.carriageReturn then ['\r', '\n'] else ['\n']

def laid : List Char := l.before ++ (l.text ++ (l.after ++ l.lineEnd))

/-- The line up to its line feed. -/
def piece : List Char :=
  l.before ++ (l.text ++ (l.after ++ if l.carriageReturn then ['\r'] else []))

theorem laid_eq : l.laid = l.piece ++ ['\n'] := by
  cases h : l.carriageReturn <;> simp [laid, piece, lineEnd, h]

theorem lineFeed_not_mem_piece : '\n' ∉ l.piece := by
  cases h : l.carriageReturn <;>
    simp [piece, h, l.lineFeed_not_mem_before, l.lineFeed_not_mem_text, l.lineFeed_not_mem_after]

theorem trim_piece : Text.trim l.piece = Text.trim l.text := by
  have hblank : ∀ c ∈ l.after ++ if l.carriageReturn then ['\r'] else [],
      Text.isBlank c = true := by
    intro c hc
    rcases List.mem_append.mp hc with hc | hc
    · exact l.isBlank_after c hc
    · obtain ⟨-, hc⟩ := List.mem_ite_nil_right.mp hc
      rw [List.mem_singleton.mp hc]
      exact Text.isBlank_return
  rw [piece, Text.trim_blank_append l.isBlank_before, Text.trim_append_of_blank _ hblank]

end LaidLine

theorem allPieces_laid (lines : List LaidLine) :
    Text.allPieces '\n' (lines.flatMap LaidLine.laid) = lines.map LaidLine.piece := by
  rw [← Text.allPieces_flatMap LaidLine.lineFeed_not_mem_piece, funext LaidLine.laid_eq]

theorem allPieces_plain (lines : List LaidLine) :
    Text.allPieces '\n' (lines.flatMap LaidLine.plain) = lines.map LaidLine.text :=
  Text.allPieces_flatMap LaidLine.lineFeed_not_mem_text lines

theorem trim_allPieces_laid (lines : List LaidLine) :
    (Text.allPieces '\n' (lines.flatMap LaidLine.laid)).map Text.trim =
      (Text.allPieces '\n' (lines.flatMap LaidLine.plain)).map Text.trim := by
  simp only [allPieces_laid, allPieces_plain, List.map_map, Function.comp_def, LaidLine.trim_piece]

theorem scanText_eq_of_trim_eq (profile : Profile) (file : String) {text text' : List Char}
    (h : (Text.allPieces '\n' text).map Text.trim = (Text.allPieces '\n' text').map Text.trim) :
    scanText profile file text = scanText profile file text' := by
  rw [← trim_linesOfText, ← trim_linesOfText] at h
  simp only [scanText, Scanner.scan_eq_of_trim_eq profile file {} h]

theorem scanStream_encode (profile : Profile) (file : String) (text : List Char) :
    scanStream profile file { bytes := Text.Utf8.encode text } =
      { events := (scanText profile file text).1
        outcome := .ok (scanText profile file text).2 } := by
  have hlines : (linesOfStream { bytes := Text.Utf8.encode text }).map Text.trim =
      (linesOfText text).map Text.trim := by
    rw [trim_linesOfStream, Text.Utf8.decodeLossy_encode, trim_linesOfText]
  simp only [scanStream, scanText, Scanner.scan_eq_of_trim_eq profile file {} hlines]

/-- The lines of a text can be indented, and end in blanks and carriage returns: events and
statistics stay the same, for the text as for its bytes. -/
theorem scan_of_laid_lines (profile : Profile) (file : String) (lines : List LaidLine) :
    let plain := lines.flatMap LaidLine.plain
    let laid := lines.flatMap LaidLine.laid
    let result := scanText profile file plain
    scanText profile file laid = result ∧
      scanStream profile file { bytes := Text.Utf8.encode plain } = ⟨result.1, .ok result.2⟩ ∧
      scanStream profile file { bytes := Text.Utf8.encode laid } = ⟨result.1, .ok result.2⟩ := by
  intro plain laid result
  have hlaid : scanText profile file laid = result :=
    scanText_eq_of_trim_eq profile file (trim_allPieces_laid lines)
  refine ⟨hlaid, scanStream_encode profile file plain, ?_⟩
  rw [scanStream_encode, hlaid]

-- Vertical tab, next line and line separator are blanks and end no line.
example : scanText ⟨.kotlin, .strict⟩ "A.kt"
      "\u000bfun f() \x7b\u0085\r\n\u2028\x7d\u00a0\n".toList =
    ([.declaration true, .method ⟨"f", "A.kt", 0⟩], ⟨2, 2, 1, 1, false⟩) := by
  decide +kernel

end MethodSurvey.Source
