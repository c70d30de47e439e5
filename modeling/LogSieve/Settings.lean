/-!
# Settings

What a configuration document can set. Each setting has a name and two older
spellings of it, a value of one type, and a value that it has where it is not given.
-/
namespace LogSieve

/-- The things that a configuration document can set, in the order in which a list gives them. -/
inductive Setting where
  | gathers
  | renamesNested
  | alwaysAsText
  | keep
  | keepMore
  | keepEmpty
  | gatheredName
  | dotReplacement
  | maxFields
deriving DecidableEq, Repr

namespace Setting

def all : List Setting :=
  [gathers, renamesNested, alwaysAsText, keep, keepMore, keepEmpty, gatheredName, dotReplacement, maxFields]

theorem mem_all (setting : Setting) : setting ∈ all := by cases setting <;> decide

def name : Setting → String
  | gathers => "useUndefined"
  | renamesNested => "mergeJSONLog"
  | alwaysAsText => "undefinedToString"
  | keep => "defaultKeepFields"
  | keepMore => "extraKeepFields"
  | keepEmpty => "keepEmptyFields"
  | gatheredName => "undefinedName"
  | dotReplacement => "undefinedDotReplaceChar"
  | maxFields => "undefinedMaxNumFields"

def olderSpellings : Setting → List String
  | gathers => ["use_undefined", "Use_undefined"]
  | renamesNested => ["merge_json_log", "Merge_json_log"]
  | alwaysAsText => ["undefined_to_string", "Undefined_to_string"]
  | keep => ["default_keep_fields", "Default_keep_fields"]
  | keepMore => ["extra_keep_fields", "Extra_keep_fields"]
  | keepEmpty => ["keep_empty_fields", "Keep_empty_fields"]
  | gatheredName => ["undefined_name", "Undefined_name"]
  | dotReplacement => ["undefined_dot_replace_char", "Undefined_dot_replace_char"]
  | maxFields => ["undefined_max_num_fields", "Undefined_max_num_fields"]

def spellings (setting : Setting) : List String := setting.name :: setting.olderSpellings

def ofSpelling? (spelling : String) : Option Setting :=
  all.find? (fun setting => spelling ∈ setting.spellings)

end Setting

/-- The spelling of a replacement that means that dots stay. -/
def dotsStay : String := "UNUSED"

/-- What a configuration document sets, before it is checked. -/
structure Settings where
  gathers : Bool
  renamesNested : Bool
  alwaysAsText : Bool
  /-- Names of kept fields, separated by commas. -/
  keep : String
  /-- Names of more kept fields, separated by commas. -/
  keepMore : String
  /-- Names of fields that stay though they are empty, separated by commas. -/
  keepEmpty : String
  gatheredName : String
  /-- What stands for a dot in a name, or `dotsStay`. -/
  dotReplacement : String
  /-- The greatest number of gathered fields that are not stored as text; below zero there is none. -/
  maxFields : Int
deriving DecidableEq, Repr

/-- What an empty document sets. -/
def Settings.initial : Settings where
  gathers := false
  renamesNested := false
  alwaysAsText := false
  keep := ""
  keepMore := ""
  keepEmpty := ""
  gatheredName := "undefined"
  dotReplacement := dotsStay
  maxFields := -1

inductive Assignment where
  | gathers (value : Bool)
  | renamesNested (value : Bool)
  | alwaysAsText (value : Bool)
  | keep (value : String)
  | keepMore (value : String)
  | keepEmpty (value : String)
  | gatheredName (value : String)
  | dotReplacement (value : String)
  | maxFields (value : Int)
deriving DecidableEq, Repr

def Assignment.setting : Assignment → Setting
  | gathers _ => .gathers
  | renamesNested _ => .renamesNested
  | alwaysAsText _ => .alwaysAsText
  | keep _ => .keep
  | keepMore _ => .keepMore
  | keepEmpty _ => .keepEmpty
  | gatheredName _ => .gatheredName
  | dotReplacement _ => .dotReplacement
  | maxFields _ => .maxFields

namespace Settings

def assign (settings : Settings) : Assignment → Settings
  | .gathers value => { settings with gathers := value }
  | .renamesNested value => { settings with renamesNested := value }
  | .alwaysAsText value => { settings with alwaysAsText := value }
  | .keep value => { settings with keep := value }
  | .keepMore value => { settings with keepMore := value }
  | .keepEmpty value => { settings with keepEmpty := value }
  | .gatheredName value => { settings with gatheredName := value }
  | .dotReplacement value => { settings with dotReplacement := value }
  | .maxFields value => { settings with maxFields := value }

def ofAssignments (assignments : List Assignment) : Settings := assignments.foldl assign initial

/-- Assignments to different settings may change places. -/
theorem assign_comm (settings : Settings) {a b : Assignment} (h : a.setting ≠ b.setting) :
    (settings.assign a).assign b = (settings.assign b).assign a := by
  cases a <;> cases b <;> first | rfl | exact absurd rfl h

end Settings
end LogSieve
