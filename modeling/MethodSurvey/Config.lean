import MethodSurvey.Settings
import MethodSurvey.Toml.Document

/-! The configuration: a TOML document with the sections `scan` and `report`. Their
settings are told by name in a table, or by position in an array. Other keys have no
effect, but must have values that can be read. -/

namespace MethodSurvey.Config

open Toml

/-- A setting of a section, and how its value is taken. -/
structure Field where
  name : String
  take : Value → Preferences → Option Preferences

/-- One of a list of names, or a table with such a name as its only key and nothing for
its value. -/
def choice? {α : Type} (named? : String → Option α) : Value → Option α
  | .text name => named? name
  | .table _ [(name, value)] => if value.isEmpty then named? name else none
  | _ => none

def length? : Value → Option Nat
  | .integer n => if 0 ≤ n ∧ n ≤ lengthLimit then some n.toNat else none
  | _ => none

/-- In the order in which an array gives them. -/
def scanFields : List Field :=
  [{ name := "declarations"
     take := fun v p => do
      return { p with declarations? := some (← choice? DeclarationStyle.named? v) } },
    { name := "key_mode"
      take := fun v p => do return { p with keying? := some (← choice? Keying.labelled? v) } }]

/-- In the order in which an array gives them. -/
def reportFields : List Field :=
  [{ name := "top"
     take := fun v p => do return { p with top? := some (← length? v) } },
    { name := "format"
      take := fun v p => do return { p with format? := some (← choice? Format.named? v) } }]

/-- Takes the settings of a section. An array may be shorter than its fields, and what
is beyond them is not looked at. A date is an empty section. -/
def section? (fields : List Field) (value : Value) (p : Preferences) : Option Preferences :=
  match value with
  | .table _ entries =>
    entries.foldlM
      (fun p (key, v) => match fields.find? (·.name == key) with
        | some field => field.take v p
        | none => if v.isReadable then some p else none)
      p
  | .array _ items => (fields.zip items).foldlM (fun p (field, v) => field.take v p) p
  | .moment => some p
  | _ => none

/-- The settings of a document. -/
def ofTable? (t : Table) : Option Preferences :=
  t.fields.foldlM
    (fun p (key, v) => match key with
      | "scan" => section? scanFields v p
      | "report" => section? reportFields v p
      | _ => if v.isReadable then some p else none)
    {}

def parse? (text : List Char) : Option Preferences := do
  ofTable? (← Toml.parse? text)

end MethodSurvey.Config
