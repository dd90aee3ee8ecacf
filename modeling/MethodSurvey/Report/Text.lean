import MethodSurvey.Report

/-! The report as lines of text. -/

namespace MethodSurvey.Report

def heading (length : Nat) : String :=
  "\nTop " ++ toString length ++ " most complex methods/functions in the directory:\n"

def row (method : MethodRecord) : String :=
  "Method: " ++ method.name ++ ", File: " ++ method.file ++
    ", Complexity: " ++ toString method.complexity ++ "\n"

def noMethods : String := "\nNo methods were found in the directory.\n"

def percentageLine (p : Binary64) : String :=
  "\nPercentage of methods not adhering to naming convention: " ++
    String.ofList (Percentage.text p) ++ "%\n"

def text (r : Report) : String :=
  (if r.hasMethods then heading r.length ++ String.join (r.top.map row) else noMethods) ++
    match r.percentage? with
    | some p => percentageLine p
    | none => ""

end MethodSurvey.Report
