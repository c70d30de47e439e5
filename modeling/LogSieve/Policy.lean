import LogSieve.Key
import LogSieve.Names
import LogSieve.Settings
import LogSieve.Text.Quotation
/-!
# Policies

A policy says what happens to each field of a record. `Settings.toPolicy` makes one
from the settings of a document and refuses settings that contradict each other. The
names it keeps are those listed and, where dots are replaced, the same names without
dots, so that a record that went through once is treated alike the second time.
-/
namespace LogSieve

/-- How the fields of a record are treated. -/
structure Policy where
  /-- Fields that are not kept are gathered in one record. -/
  gathers : Bool
  /-- Dots are replaced in nested names too. -/
  renamesNested : Bool
  /-- The gathered record is always stored as text. -/
  alwaysAsText : Bool
  /-- The fields that stay where they are. -/
  keep : Names
  /-- The fields that stay though they are empty. -/
  keepEmpty : Names
  gatheredName : String
  dotReplacement : Option String
  /-- The greatest number of gathered fields that are not stored as text. -/
  maxFields : Option Nat
deriving DecidableEq, Repr

namespace Policy

/-- What stands for a dot in the names of nested fields. -/
def nestedReplacement (policy : Policy) : Option String :=
  if policy.renamesNested then policy.dotReplacement else none

/-- A field's name at the top of a record or of the gathered record. -/
def rename (policy : Policy) (name : String) : String := Key.undotted policy.dotReplacement name

/-- The policy that leaves every name and every field that is not empty. -/
def initial : Policy where
  gathers := false
  renamesNested := false
  alwaysAsText := false
  keep := []
  keepEmpty := []
  gatheredName := "undefined"
  dotReplacement := none
  maxFields := none

end Policy

/-- Why settings make no policy. -/
inductive Inconsistency where
  | emptyName
  | emptyReplacement
  | dottedReplacement (replacement : String)
  | keptName (name : String)
deriving DecidableEq, Repr

def Inconsistency.message : Inconsistency → String
  | .emptyName => "undefinedName must not be empty"
  | .emptyReplacement => "undefinedDotReplaceChar must not be empty; use UNUSED to disable"
  | .dottedReplacement replacement =>
    "undefinedDotReplaceChar " ++ Text.quotation replacement ++ " must not contain '.'"
  | .keptName name => "Do not put [" ++ name ++ "] in defaultKeepFields or extraKeepFields"

namespace Settings

/-- What stands for a dot, if dots are replaced at all. -/
def replacement? (settings : Settings) : Except Inconsistency (Option String) :=
  if settings.dotReplacement = dotsStay then .ok none
  else if settings.dotReplacement = "" then .error .emptyReplacement
  else if Key.Dotted settings.dotReplacement then .error (.dottedReplacement settings.dotReplacement)
  else .ok (some settings.dotReplacement)

/-- The set with each of its names without dots too. -/
def withUndotted (replacement : Option String) (names : Names) : Names :=
  names.insertAll (names.map (Key.undotted replacement))

/-- The names of the kept fields as they are listed. -/
def listedKeep (settings : Settings) : Names :=
  (Names.split settings.keep).insertAll (Names.split settings.keepMore)

/-- The policy that the settings describe. -/
def toPolicy (settings : Settings) : Except Inconsistency Policy := do
  if settings.gatheredName = "" then .error .emptyName
  let replacement ← settings.replacement?
  let keep := withUndotted replacement settings.listedKeep
  let keepEmpty := withUndotted replacement (Names.split settings.keepEmpty)
  if settings.gathers ∧ settings.gatheredName ∈ keep then .error (.keptName settings.gatheredName)
  .ok {
    gathers := settings.gathers
    renamesNested := settings.renamesNested
    alwaysAsText := settings.alwaysAsText
    keep, keepEmpty
    gatheredName := settings.gatheredName
    dotReplacement := replacement
    maxFields := if settings.maxFields < 0 then none else some settings.maxFields.toNat }

end Settings
end LogSieve
