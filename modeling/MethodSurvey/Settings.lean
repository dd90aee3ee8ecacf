import MethodSurvey.Declaration
import MethodSurvey.Registry

/-! The settings of a run. Each one is taken from the command line if it is given
there, else from the configuration, else from the defaults. -/

namespace MethodSurvey

inductive Format where
  | text
  | json
  deriving DecidableEq, Repr

namespace Format

def all : List Format := [text, json]

def name : Format → String
  | text => "text"
  | json => "json"

def named? (s : String) : Option Format :=
  all.find? (·.name == s)

end Format

/-- Settings of which each may be left open. -/
structure Preferences where
  declarations? : Option DeclarationStyle := none
  keying? : Option Keying := none
  top? : Option Nat := none
  format? : Option Format := none
  deriving DecidableEq, Repr

/-- What the first leaves open is taken from the second. -/
def Preferences.orElse (p q : Preferences) : Preferences where
  declarations? := p.declarations? <|> q.declarations?
  keying? := p.keying? <|> q.keying?
  top? := p.top? <|> q.top?
  format? := p.format? <|> q.format?

/-- The greatest length of a ranking that can be asked for. -/
def lengthLimit : Nat := UInt64.size - 1

structure Settings where
  declarations : DeclarationStyle := .leading
  keying : Keying := .name
  /-- The length of the ranking. -/
  top : Nat := 3
  format : Format := .text
  deriving DecidableEq, Repr

namespace Settings

def default : Settings := {}

/-- The defaults where the preferences leave something open. -/
def ofPreferences (p : Preferences) : Settings where
  declarations := p.declarations?.getD default.declarations
  keying := p.keying?.getD default.keying
  top := p.top?.getD default.top
  format := p.format?.getD default.format

def resolve (commandLine configuration : Preferences) : Settings :=
  ofPreferences (commandLine.orElse configuration)

end Settings

end MethodSurvey
