import MethodSurvey.Text.Occurrence

/-! How a failed run is explained: its causes in one line, and hints on what to do. -/

namespace MethodSurvey.Hints

def directory : List String :=
  ["Pass a directory that exists, e.g. `jvmetrics src/main/java/com/acme`.",
    "Only files directly inside the directory are scanned; subdirectories are skipped."]

def noDirectory : List String :=
  ["Pass the directory as the first argument.",
    "Unset `CI` and `JVMETRICS_NON_INTERACTIVE` to be prompted on a terminal."]

def configPath : List String :=
  ["Check the `--config` path, or drop the flag."]

def configSyntax : List String :=
  ["Check `jvmetrics.toml` syntax: `[scan]` takes `declarations` and `key_mode`, " ++
    "`[report]` takes `top` and `format`."]

/-- The hints for a chain of messages, the outermost first. They are chosen by the
words of the messages, letter case aside. -/
def ofMessages (messages : List String) : List String :=
  let words := (" | ".intercalate messages).toList.map Char.toLower
  let holds (s : String) : Bool := Text.contains s.toList words
  (if holds "invalid directory path" then directory else []) ++
    (if holds "no directory given" then noDirectory else []) ++
    (if holds "failed to read config" then configPath else []) ++
    if holds "config" && (holds "parse" || holds "invalid config value") then configSyntax else []

def list : List String → String
  | [] => ""
  | hints => "\n\nHints:\n" ++ String.join (hints.map fun hint => "- " ++ hint ++ "\n")

/-- The messages joined, with their hints. -/
def explain (messages : List String) : String :=
  "Error: " ++ ": ".intercalate messages ++ list (ofMessages messages)

end MethodSurvey.Hints
