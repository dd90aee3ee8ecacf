import Std.Data.HashMap
import MethodSurvey.Percentage
import MethodSurvey.Scan.Event

/-! The methods and declarations of a run. A method is stored under its key; a later
method with the same key takes the place of the earlier one. -/

namespace MethodSurvey

/-- What tells two methods apart. -/
inductive Keying where
  | name
  | fileAndName
  deriving DecidableEq, Repr

namespace Keying

def all : List Keying := [name, fileAndName]

def label : Keying → String
  | name => "name"
  | fileAndName => "file"

def labelled? (s : String) : Option Keying :=
  all.find? (·.label == s)

def key : Keying → (methodName file : String) → String
  | name, methodName, _ => methodName
  | fileAndName, methodName, file => file ++ "::" ++ methodName

end Keying

structure Registry where
  keying : Keying
  /-- In the order in which their keys first came up. -/
  records : Array MethodRecord := #[]
  /-- The place of each key among the records. -/
  slots : Std.HashMap String Nat := ∅
  totals : Totals := {}

namespace Registry

def size (r : Registry) : Nat := r.records.size

def isEmpty (r : Registry) : Bool := r.records.isEmpty

def keyOf (r : Registry) (method : MethodRecord) : String :=
  r.keying.key method.name method.file

def recordMethod (r : Registry) (method : MethodRecord) : Registry :=
  match r.slots[r.keyOf method]? with
  | some slot => { r with records := r.records.setIfInBounds slot method }
  | none =>
    { r with
      slots := r.slots.insert (r.keyOf method) r.records.size
      records := r.records.push method }

def recordDeclaration (r : Registry) (conforming : Bool) : Registry :=
  { r with totals :=
    { declarations := r.totals.declarations + 1
      nonConforming := r.totals.nonConforming + if conforming then 0 else 1 } }

def record (r : Registry) : Event → Registry
  | .declaration conforming => r.recordDeclaration conforming
  | .method method => r.recordMethod method

def recordAll (r : Registry) (events : List Event) : Registry :=
  events.foldl record r

def get? (r : Registry) (key : String) : Option MethodRecord := do
  r.records[← r.slots[key]?]?

/-- By falling complexity; methods of equal complexity keep their order. -/
def ranking (r : Registry) : List MethodRecord :=
  r.records.toList.mergeSort fun a b => b.complexity ≤ a.complexity

def top (r : Registry) (k : Nat) : List MethodRecord :=
  r.ranking.take k

def percentage? (r : Registry) : Option Binary64 := r.totals.percentage?

end Registry

end MethodSurvey
