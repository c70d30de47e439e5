import LogSieve.Proofs.Json.Parsed
import LogSieve.Proofs.Json.Typed
import LogSieve.Settings.Reader
/-!
# Names and values of settings

A member of an object names a setting if its name is one of the three spellings, with whatever
escapes. The spellings differ in the case of their letters and in the lines between words alone,
which tells them from those of all other settings (`Setting.spellings_exact`). A setting is read
from the texts for the values that it can be given, and from no others (`takes_readAssignment`).
-/
namespace LogSieve
open Json

/-! ## Names -/

/-- The letters of a name, without regard to their case and to the lines between its words. -/
def Setting.letters (name : String) : List Char := (name.toList.filter (· ≠ '_')).map Char.toLower

/-- A setting has three spellings, whose letters are those of its name and of no other setting's. -/
theorem Setting.spellings_exact (setting : Setting) :
    setting.spellings.length = 3 ∧ setting.spellings.Nodup ∧
      ∀ spelling ∈ setting.spellings, ∀ other : Setting, letters spelling = letters other.name ↔ setting = other := by
  have exact : ∀ setting ∈ all, setting.spellings.length = 3 ∧ setting.spellings.Nodup ∧
      ∀ spelling ∈ setting.spellings, ∀ other ∈ all, letters spelling = letters other.name ↔ setting = other := by
    decide +kernel
  obtain ⟨three, distinct, lettersExact⟩ := exact setting setting.mem_all
  exact ⟨three, distinct, fun spelling inside other => lettersExact spelling inside other other.mem_all⟩

/-- No name is a spelling of two settings. -/
theorem Setting.eq_of_mem_spellings {setting other : Setting} {name : String} (spelled : name ∈ setting.spellings)
    (otherSpelled : name ∈ other.spellings) : setting = other := by
  have same := ((spellings_exact setting).2.2 name spelled setting).2 rfl
  exact (((spellings_exact other).2.2 name otherSpelled setting).1 same).symm

theorem Setting.ofSpelling?_eq_some_iff {name : String} {setting : Setting} :
    ofSpelling? name = some setting ↔ name ∈ setting.spellings := by
  constructor
  · intro found
    simpa using List.find?_some found
  · intro spelled
    cases found : ofSpelling? name with
    | none => exact absurd spelled (by simpa using List.find?_eq_none.1 found setting setting.mem_all)
    | some other =>
      have otherSpelled : name ∈ other.spellings := by simpa using List.find?_some found
      rw [eq_of_mem_spellings spelled otherSpelled]

theorem Setting.ofSpelling?_eq_none_iff {name : String} :
    ofSpelling? name = none ↔ ∀ setting : Setting, name ∉ setting.spellings := by
  rw [Option.eq_none_iff_forall_ne_some]
  exact forall_congr' fun setting => not_congr ofSpelling?_eq_some_iff

/-- The name is one of the setting's spellings, with whatever escapes. -/
def Json.Member.Names (member : Member) (setting : Setting) : Prop :=
  ∃ name ∈ setting.spellings, SpellsString name member.key

/-- The name is no spelling of a setting. -/
def Json.Member.Unknown (member : Member) : Prop :=
  ∃ name, SpellsString name member.key ∧ ∀ setting : Setting, name ∉ setting.spellings

theorem Json.Member.Names.unique {member : Member} {setting other : Setting} (named : member.Names setting)
    (otherNamed : member.Names other) : setting = other := by
  obtain ⟨name, spelling, spelled⟩ := named
  obtain ⟨_, otherSpelling, otherSpelled⟩ := otherNamed
  obtain rfl := spellsString_unique spelled otherSpelled
  exact Setting.eq_of_mem_spellings spelling otherSpelling

theorem Json.Member.Names.not_unknown {member : Member} {setting : Setting} (named : member.Names setting) :
    ¬ member.Unknown := by
  obtain ⟨name, spelling, spelled⟩ := named
  rintro ⟨_, otherSpelled, unknown⟩
  obtain rfl := spellsString_unique spelled otherSpelled
  exact unknown setting spelling

/-! ## Assignments -/

/-- The value that a setting is given. -/
def Assignment.value : Assignment → Value
  | gathers value | renamesNested value | alwaysAsText value => .bool value
  | keep value | keepMore value | keepEmpty value | gatheredName value | dotReplacement value => .string value
  | maxFields value => .number (.integer value)

/-- A text for the value that a setting is given; a number is within 64 bits with a sign. -/
def Assignment.SpelledBy (assignment : Assignment) (text : List Char) : Prop :=
  Spells assignment.value text ∧ ∀ n, assignment = .maxFields n → n < signedLimit

theorem Assignment.SpelledBy.shaped {assignment : Assignment} {text : List Char}
    (spelled : assignment.SpelledBy text) : Shaped text := shaped_of_spells spelled.1

namespace Settings

/-- Every setting takes the texts for the values that it can be given. -/
theorem takes_readAssignment (setting : Setting) :
    Takes (readAssignment setting)
      (fun assignment text => assignment.setting = setting ∧ assignment.SpelledBy text) := by
  refine match setting with
    | .gathers => (takes_readBool.map Assignment.gathers).congr ?_
    | .renamesNested => (takes_readBool.map Assignment.renamesNested).congr ?_
    | .alwaysAsText => (takes_readBool.map Assignment.alwaysAsText).congr ?_
    | .keep => (takes_readText.map Assignment.keep).congr ?_
    | .keepMore => (takes_readText.map Assignment.keepMore).congr ?_
    | .keepEmpty => (takes_readText.map Assignment.keepEmpty).congr ?_
    | .gatheredName => (takes_readText.map Assignment.gatheredName).congr ?_
    | .dotReplacement => (takes_readText.map Assignment.dotReplacement).congr ?_
    | .maxFields => (takes_readInteger.map Assignment.maxFields).congr ?_
  all_goals
    intro assignment text
    cases assignment <;> simp [Assignment.setting, Assignment.SpelledBy, Assignment.value]

end Settings
end LogSieve
