import MethodSurvey.Toml.Value

/-! Putting a document together: headers and keys in the order in which they stand.
No table is opened twice, and nothing is added to what is complete. -/

namespace MethodSurvey.Toml

structure Table where
  origin : Origin := .header
  fields : List (String × Value) := []

/-- A key with the tables that lead to it. -/
structure KeyPath where
  tables : List String
  name : String
  deriving DecidableEq, Repr

/-- All its keys, in their order. -/
def KeyPath.keys (path : KeyPath) : List String := path.tables ++ [path.name]

namespace Table

def toValue (t : Table) : Value := .table t.origin t.fields

def get? (t : Table) (key : String) : Option Value := t.fields.lookup key

def set (t : Table) (key : String) (value : Value) : Table :=
  if (t.get? key).isSome then
    { t with fields := t.fields.map fun f => if f.1 = key then (key, value) else f }
  else { t with fields := t.fields ++ [(key, value)] }

/-- Changes the table that the keys lead to. Tables that are missing are made with the
origin `made`: `implied` on the way of a header, `dotted` on the way of a key. The way
leads through a growing array by its last table. A key passes through no table that has
a header of its own, and nothing passes through braces. -/
def change (made : Origin) (f : Table → Option Table) : List String → Table → Option Table
  | [], t => f t
  | key :: keys, t => do
    match t.get? key with
    | none => return t.set key (← change made f keys ⟨made, []⟩).toValue
    | some (.table origin fields) =>
      guard (origin ≠ .inline ∧ ¬(made = .dotted ∧ origin = .header))
      return t.set key (← change made f keys ⟨origin, fields⟩).toValue
    | some (.array true items) =>
      let some (.table origin fields) := items.getLast? | none
      let last ← change made f keys ⟨origin, fields⟩
      return t.set key (.array true (items.dropLast ++ [last.toValue]))
    | some _ => none

/-- Adds a key that is not there yet. -/
def add (t : Table) (name : String) (value : Value) : Option Table :=
  if (t.get? name).isSome then none else some (t.set name value)

/-- Adds a key to the table that the keys before it lead to. That must be a table which
dotted keys or headers have only passed through, and no header can open it any more. -/
def assign (t : Table) (key : KeyPath) (value : Value) : Option Table :=
  if key.tables = [] then t.add key.name value
  else
    t.change .dotted
      (fun t =>
        if t.origin = .implied ∨ t.origin = .dotted then
          { t with origin := .dotted }.add key.name value
        else none)
      key.tables

/-- Opens the table of a header. It may have been implied, but not made otherwise. -/
def openTable (t : Table) (header : KeyPath) : Option Table :=
  t.change .implied
    (fun t =>
      match t.get? header.name with
      | none => some (t.set header.name (.table .header []))
      | some (.table .implied fields) => some (t.set header.name (.table .header fields))
      | some _ => none)
    header.tables

/-- Adds a table to a growing array, which is made if it is missing. -/
def growArray (t : Table) (header : KeyPath) : Option Table :=
  t.change .implied
    (fun t =>
      match t.get? header.name with
      | none => some (t.set header.name (.array true [.table .header []]))
      | some (.array true items) =>
        some (t.set header.name (.array true (items ++ [.table .header []])))
      | some _ => none)
    header.tables

/-- The table in braces with the given assignments. -/
def inline? (assignments : List (KeyPath × Value)) : Option Table :=
  assignments.foldlM (fun t (key, value) => t.assign key value) { origin := .inline }

end Table

/-- One line of a document that says something. -/
inductive Statement where
  | header (path : KeyPath)
  | arrayHeader (path : KeyPath)
  | assignment (key : KeyPath) (value : Value)

/-- A document as far as it is put together. -/
structure Draft where
  root : Table := {}
  /-- The keys that lead to the table that was opened last. -/
  opened : List String := []

namespace Draft

def add (d : Draft) : Statement → Option Draft
  | .header path => do
    return { root := ← d.root.openTable path, opened := path.keys }
  | .arrayHeader path => do
    return { root := ← d.root.growArray path, opened := path.keys }
  | .assignment key value => do
    return { d with root := ← d.root.change .implied (·.assign key value) d.opened }

end Draft

/-- The root table of a document. -/
def Table.ofStatements? (statements : List Statement) : Option Table :=
  Draft.root <$> statements.foldlM Draft.add {}

end MethodSurvey.Toml
