import MethodSurvey.Declaration
import MethodSurvey.Json
import MethodSurvey.Report
import MethodSurvey.Tool

/-! The report as one JSON object on one line. -/

namespace MethodSurvey

/-- What a receipt tells of a run beside its report and its files. -/
structure ReceiptContext where
  root : String
  declarations : DeclarationStyle
  keying : Keying
  top : Nat

namespace Report

def recordFields (method : MethodRecord) : Json :=
  .object [("name", .text method.name), ("file", .text method.file),
    ("complexity", .natural method.complexity)]

/-- The receipt of a run made at `timestamp`, in milliseconds. -/
def receipt (r : Report) (summary : Summary) (context : ReceiptContext) (timestamp : Nat) : Json :=
  .object
    [("schema_version", .natural 1),
      ("generated_at_ms", .natural timestamp),
      ("tool", .object [("name", .text Tool.name), ("version", .text Tool.version)]),
      ("status", .text summary.status.name),
      ("root", .text context.root),
      ("args", .object
        [("declarations", .text context.declarations.name),
          ("key_mode", .text context.keying.label), ("top", .natural context.top)]),
      ("files_scanned", .natural summary.scanned),
      ("files_failed", .natural summary.failed),
      ("totals", .object
        [("total_methods", .natural r.totals.declarations),
          ("non_conforming_methods", .natural r.totals.nonConforming)]),
      ("non_conforming_pct", match r.percentage? with
        | some p => .real (Percentage.rounded p)
        | none => .null),
      ("top", .array (r.top.map recordFields)),
      ("warnings", .array (summary.warnings.map .text))]

def receiptLine (r : Report) (summary : Summary) (context : ReceiptContext) (timestamp : Nat) :
    String :=
  String.ofList ((r.receipt summary context timestamp).compact ++ ['\n'])

end Report

end MethodSurvey
