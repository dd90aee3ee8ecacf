/-! How the program presents itself. -/

namespace MethodSurvey.Tool

def name : String := "jvmetrics"

def version : String := "0.3.0"

def versionLine : String := name ++ " " ++ version ++ "\n"

def usageLine : String := "Usage: " ++ name ++ " [OPTIONS] [DIR]\n"

def help : String :=
  "Ranks Java and Kotlin methods by a score of branching keywords, and reports how many\n" ++
  "method names break lowerCamelCase.\n\n" ++ usageLine ++
  "\nArguments:\n" ++
  "  [DIR]                  Directory whose .java and .kt files are scanned\n" ++
  "\nOptions:\n" ++
  "      --top <N>          Number of methods listed in the ranking [default: 3]\n" ++
  "      --format <F>       Output format: text, json [default: text]\n" ++
  "      --declarations <D> How declarations are recognized: prefix, strict [default: prefix]\n" ++
  "      --key-mode <K>     Key of a method: name, file [default: name]\n" ++
  "      --config <PATH>    Configuration file [default: jvmetrics.toml, if present]\n" ++
  "  -v, --verbose          More messages; may be repeated\n" ++
  "  -h, --help             Print help\n" ++
  "  -V, --version          Print version\n"

end MethodSurvey.Tool
