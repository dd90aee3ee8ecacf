import MethodSurvey.Registry

/-! What a run reports: the ranking, the declarations and the files. -/

namespace MethodSurvey

structure Report where
  /-- The length asked for. -/
  length : Nat
  top : List MethodRecord
  /-- The number of keys in the registry. -/
  recorded : Nat
  totals : Totals
  percentage? : Option Binary64
  deriving DecidableEq, Repr

def Report.hasMethods (r : Report) : Bool := !r.top.isEmpty

def Registry.report (r : Registry) (length : Nat) : Report where
  length := length
  top := r.top length
  recorded := r.size
  totals := r.totals
  percentage? := r.percentage?

/-- The files of a run, with a warning for each one that failed. -/
structure Summary where
  scanned : Nat := 0
  failed : Nat := 0
  warnings : List String := []
  deriving DecidableEq, Repr

inductive Status where
  | complete
  | incomplete
  deriving DecidableEq, Repr

def Status.name : Status → String
  | complete => "complete"
  | incomplete => "partial"

def Summary.status (s : Summary) : Status :=
  if s.failed = 0 then .complete else .incomplete

end MethodSurvey
