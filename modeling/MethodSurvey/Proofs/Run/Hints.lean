import MethodSurvey.Proofs.Text.Encoded
import MethodSurvey.Proofs.Text.Occurrence
import MethodSurvey.Run

/-! The hints for a path that leads nowhere. They are chosen by words, and the words of the path
count like those of the message: a path can add the hints of other failures to its own. -/

namespace MethodSurvey

theorem Path.display_ofString (s : String) : (ofString s).display = s := by
  rw [display, ofString, Text.Utf8.decodeLossy_encode, String.ofList_toList]

/-- The faults of a file system. -/
def Fault.listed : List Fault :=
  [missing, notADirectory, isADirectory, tooManyLinks, nulInPath, notUtf8]

namespace Hints

/-- Whether a word occurs in a text, letter case aside. -/
def mentions (text word : String) : Bool :=
  Text.contains word.toList (text.toList.map Char.toLower)

def ofText (text : String) : List String :=
  (if mentions text "invalid directory path" then directory else []) ++
    (if mentions text "no directory given" then noDirectory else []) ++
    (if mentions text "failed to read config" then configPath else []) ++
    if mentions text "config" && (mentions text "parse" || mentions text "invalid config value")
      then configSyntax else []

theorem ofMessages_eq_ofText (messages : List String) :
    ofMessages messages = ofText (" | ".intercalate messages) := rfl

section Mentions

variable {start word : String}

theorem mentions_append_of_mentions (h : mentions start word = true) (s : String) :
    mentions (start ++ s) word = true := by
  obtain ⟨before, after, hword⟩ := Text.contains_iff.mp h
  rw [mentions, String.toList_append, List.map_append, ← hword, Text.contains_iff]
  exact ⟨before, after ++ s.toList.map Char.toLower, by simp⟩

theorem mentions_append_of_apart (h : Text.Apart word.toList (start.toList.map Char.toLower))
    (s : String) : mentions (start ++ s) word = mentions s word := by
  rw [mentions, String.toList_append, List.map_append, Text.contains_append_of_apart h, mentions]

/-- A colon divides a text for the words that have none. -/
theorem mentions_append_colon (h : ':' ∉ word.toList) (s t : String) :
    mentions (s ++ ":" ++ t) word = (mentions s word || mentions t word) := by
  have hcolon : (s ++ ":" ++ t).toList.map Char.toLower =
      s.toList.map Char.toLower ++ ':' :: t.toList.map Char.toLower := by
    simp [String.toList_append]
  rw [mentions, hcolon, Text.contains_append_cons h, mentions, mentions]

end Mentions

theorem ofMessages_notADirectory (detail : String) (p : Path) :
    ofMessages ((Failure.notADirectory ⟨p⟩).messages detail) =
      directory ++ ((if mentions p.display "no directory given" then noDirectory else []) ++
        (if mentions p.display "failed to read config" then configPath else []) ++
        if mentions p.display "config" &&
            (mentions p.display "parse" || mentions p.display "invalid config value")
          then configSyntax else []) := by
  have hown : mentions ("Invalid directory path: " ++ p.display) "invalid directory path" = true :=
    mentions_append_of_mentions (by decide) _
  rw [ofMessages_eq_ofText]
  change ofText ("Invalid directory path: " ++ p.display) = _
  rw [ofText, hown, if_pos rfl, mentions_append_of_apart (by decide),
    mentions_append_of_apart (by decide), mentions_append_of_apart (by decide),
    mentions_append_of_apart (by decide), mentions_append_of_apart (by decide)]
  simp only [List.append_assoc]

/-- The words of other failures than one to read a configuration. -/
def otherWords : List String :=
  ["invalid directory path", "no directory given", "parse", "invalid config value"]

/-- What follows the path and a colon in the messages for a file that cannot be read. -/
def faultText (f : Fault) : String := " " ++ f.message ++ " | " ++ f.message

theorem mentions_faultText {f : Fault} (hf : f ∈ Fault.listed) {word : String}
    (hword : word ∈ otherWords) : mentions (faultText f) word = false := by
  have hall : ∀ f ∈ Fault.listed, ∀ word ∈ otherWords,
      Text.contains word.toList ((' ' :: f.message.toList ++ [' ', '|', ' '] ++
        f.message.toList).map Char.toLower) = false := by
    decide +kernel
  have hlist : (faultText f).toList =
      ' ' :: f.message.toList ++ [' ', '|', ' '] ++ f.message.toList := by
    simp [faultText, String.toList_append]
  rw [mentions, hlist, hall f hf word hword]

/-- The part of the messages before the first colon, where no fault adds to the words. -/
theorem mentions_unreadable {f : Fault} (hf : f ∈ Fault.listed) {word : String}
    (hword : word ∈ otherWords) (p : Path) :
    mentions ("Failed to read config " ++ p.display ++ ":" ++ faultText f) word =
      mentions p.display word := by
  have hapart : ∀ word ∈ otherWords, ':' ∉ word.toList ∧
      Text.Apart word.toList ("Failed to read config ".toList.map Char.toLower) := by
    decide +kernel
  obtain ⟨hcolon, hstart⟩ := hapart word hword
  rw [mentions_append_colon hcolon, mentions_append_of_apart hstart, mentions_faultText hf hword,
    Bool.or_false]

theorem ofMessages_unreadable (detail : String) (p : Path) {f : Fault} (hf : f ∈ Fault.listed) :
    ofMessages ((Failure.config (.unreadable p f)).messages detail) =
      (if mentions p.display "invalid directory path" then directory else []) ++
        (if mentions p.display "no directory given" then noDirectory else []) ++ configPath ++
        if mentions p.display "parse" || mentions p.display "invalid config value"
          then configSyntax else [] := by
  have hcolon : ": " = ":" ++ " " := rfl
  have htext : "Failed to read config " ++ p.display ++ ": " ++ f.message ++ " | " ++ f.message =
      "Failed to read config " ++ p.display ++ ":" ++ faultText f := by
    simp only [hcolon, faultText, String.append_assoc]
  have hown (word : String) (h : mentions "Failed to read config " word = true) :
      mentions ("Failed to read config " ++ p.display ++ ":" ++ faultText f) word = true := by
    rw [String.append_assoc, String.append_assoc]
    exact mentions_append_of_mentions h _
  rw [ofMessages_eq_ofText]
  change ofText ("Failed to read config " ++ p.display ++ ": " ++ f.message ++ " | " ++
    f.message) = _
  rw [htext, ofText, hown "failed to read config" (by decide), hown "config" (by decide),
    if_pos rfl, Bool.true_and,
    mentions_unreadable hf (by simp [otherWords]), mentions_unreadable hf (by simp [otherWords]),
    mentions_unreadable hf (by simp [otherWords]), mentions_unreadable hf (by simp [otherWords])]

/-- A path that is no directory, or a configuration that cannot be read, is explained with the
hints of its failure, and with those of each other failure whose words occur in the path. Only
without such words in the path there are no hints but its own. -/
theorem explain_path_failures (detail : String) (p : Path) :
    let found := mentions p.display
    let extra :=
      (if found "no directory given" then noDirectory else []) ++
        (if found "failed to read config" then configPath else []) ++
        if found "config" && (found "parse" || found "invalid config value") then configSyntax
          else []
    let earlier :=
      (if found "invalid directory path" then directory else []) ++
        if found "no directory given" then noDirectory else []
    let later := if found "parse" || found "invalid config value" then configSyntax else []
    explain ((Failure.notADirectory ⟨p⟩).messages detail) =
        "Error: " ++ ("Invalid directory path: " ++ p.display) ++ list (directory ++ extra) ∧
      (extra = [] ↔ found "no directory given" = false ∧ found "failed to read config" = false ∧
        (found "config" = true → found "parse" = false ∧ found "invalid config value" = false)) ∧
      ∀ f ∈ Fault.listed,
        explain ((Failure.config (.unreadable p f)).messages detail) =
            "Error: " ++ ("Failed to read config " ++ p.display ++ ": " ++ f.message ++ ": " ++
              f.message) ++ list (earlier ++ configPath ++ later) ∧
          (earlier ++ later = [] ↔ ∀ word ∈ otherWords, found word = false) := by
  intro found extra earlier later
  refine ⟨?_, ?_, fun f hf => ⟨?_, ?_⟩⟩
  · rw [explain, ofMessages_notADirectory]
    rfl
  · simp [extra, noDirectory, configPath, configSyntax]
  · rw [explain, ofMessages_unreadable detail p hf]
    rfl
  · simp [earlier, later, otherWords, directory, noDirectory, configSyntax]

theorem explain_path_failures_of_words :
    let p := Path.ofString "Parse/No directory given"
    Fault.missing ∈ Fault.listed ∧
      explain ((Failure.config (.unreadable p .missing)).messages "") =
        "Error: " ++ ("Failed to read config " ++ p.display ++ ": " ++ Fault.missing.message ++
          ": " ++ Fault.missing.message) ++ list (noDirectory ++ configPath ++ configSyntax) := by
  intro p
  have hlisted : Fault.missing ∈ Fault.listed := by decide
  obtain ⟨-, -, hread⟩ := explain_path_failures "" p
  obtain ⟨htext, -⟩ := hread .missing hlisted
  have hdisplay : p.display = "Parse/No directory given" := Path.display_ofString _
  have hdirectory : mentions p.display "invalid directory path" = false := hdisplay ▸ by decide
  have hargument : mentions p.display "no directory given" = true := hdisplay ▸ by decide
  have hparse : mentions p.display "parse" = true := hdisplay ▸ by decide
  rw [hdirectory, hargument, hparse] at htext
  exact ⟨hlisted, htext⟩

/-- Words of a path are taken for words of a message: no configuration was looked for in the
one case, and none was read in the other. -/
theorem syntax_hint_for_paths :
    let p := Path.ofString "src/config/parser"
    let q := Path.ofString "parse.toml"
    ofMessages ((Failure.notADirectory ⟨p⟩).messages "") = directory ++ configSyntax ∧
      ofMessages ((Failure.config (.unreadable q .missing)).messages "") =
        configPath ++ configSyntax ∧
      directory ++ configSyntax ≠ directory ∧ configPath ++ configSyntax ≠ configPath := by
  intro p q
  have hp : p.display = "src/config/parser" := Path.display_ofString _
  have hq : q.display = "parse.toml" := Path.display_ofString _
  refine ⟨?_, ?_, by decide, by decide⟩
  · rw [ofMessages_notADirectory, hp]
    decide
  · rw [ofMessages_unreadable "" q (by decide), hq]
    decide

end Hints

end MethodSurvey
