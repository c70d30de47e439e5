import LogSieve.Policy
/-!
# Coherent policies

What settings must fit together for: the replacement for a dot has no dot itself, so
taking the dots out of a name twice is taking them out once; the kept names are closed
under that; and the reserved name is none of them. Settings that make a policy describe it
(`describes_of_toPolicy`) and make a coherent one (`coherent_of_toPolicy`).
-/
namespace LogSieve.Key

/-- A name has no dot left once a text without a dot stands for each. -/
theorem not_dotted_replaceDots {replacement : String} (plain : ¬ Dotted replacement) (name : String) :
    ¬ Dotted (replaceDots replacement name) := by
  intro dotted
  rw [Dotted, replaceDots, String.toList_ofList, List.mem_flatMap] at dotted
  obtain ⟨c, _, inside⟩ := dotted
  by_cases dot : c = '.'
  · rw [if_pos dot] at inside
    exact plain inside
  · rw [if_neg dot, List.mem_singleton] at inside
    exact dot inside.symm

theorem not_touched_undotted {replacement : Option String} (plain : ∀ text ∈ replacement, ¬ Dotted text)
    (name : String) : ¬ Touched replacement (undotted replacement name) := by
  cases replacement with
  | none => simp [Touched]
  | some text =>
    rintro ⟨_, dotted⟩
    by_cases before : Dotted name
    · rw [undotted, if_pos before] at dotted
      exact not_dotted_replaceDots (plain text rfl) name dotted
    · rw [undotted, if_neg before] at dotted
      exact before dotted

theorem undotted_undotted {replacement : Option String} (plain : ∀ text ∈ replacement, ¬ Dotted text)
    (name : String) : undotted replacement (undotted replacement name) = undotted replacement name :=
  undotted_of_not_touched (not_touched_undotted plain name)

/-- Exactly the names with a dot to replace change. -/
theorem undotted_eq_self_iff {replacement : Option String} (plain : ∀ text ∈ replacement, ¬ Dotted text)
    {name : String} : undotted replacement name = name ↔ ¬ Touched replacement name := by
  constructor
  · intro same
    rw [← same]
    exact not_touched_undotted plain name
  · exact undotted_of_not_touched

end LogSieve.Key

namespace LogSieve

/-- The parts of the policy fit together. -/
structure Policy.Coherent (policy : Policy) : Prop where
  plain : ∀ text ∈ policy.dotReplacement, ¬ Key.Dotted text
  keepClosed : ∀ name ∈ policy.keep, policy.rename name ∈ policy.keep
  keepEmptyClosed : ∀ name ∈ policy.keepEmpty, policy.rename name ∈ policy.keepEmpty
  reservedFree : policy.gathers = true → policy.gatheredName ∉ policy.keep

namespace Policy.Coherent
variable {policy : Policy}

theorem plainNested (coherent : policy.Coherent) : ∀ text ∈ policy.nestedReplacement, ¬ Key.Dotted text := by
  intro text member
  rw [nestedReplacement] at member
  split at member
  · exact coherent.plain text member
  · cases member

theorem rename_rename (coherent : policy.Coherent) (name : String) :
    policy.rename (policy.rename name) = policy.rename name :=
  Key.undotted_undotted coherent.plain name

theorem rename_eq_self_iff (coherent : policy.Coherent) {name : String} :
    policy.rename name = name ↔ ¬ Key.Touched policy.dotReplacement name :=
  Key.undotted_eq_self_iff coherent.plain

/-- A kept field never takes the reserved name. -/
theorem rename_ne_gatheredName (coherent : policy.Coherent) (gathers : policy.gathers = true) {name : String}
    (kept : name ∈ policy.keep) : policy.rename name ≠ policy.gatheredName := by
  intro same
  exact coherent.reservedFree gathers (same ▸ coherent.keepClosed name kept)

end Policy.Coherent

namespace Settings

theorem mem_withUndotted {replacement : Option String} {names : Names} {name : String} :
    name ∈ withUndotted replacement names ↔
      name ∈ names ∨ ∃ listed ∈ names, Key.undotted replacement listed = name := by
  rw [withUndotted, Names.mem_insertAll, List.mem_map, or_comm]

theorem withUndotted_closed {replacement : Option String} (plain : ∀ text ∈ replacement, ¬ Key.Dotted text)
    {names : Names} {name : String} (member : name ∈ withUndotted replacement names) :
    Key.undotted replacement name ∈ withUndotted replacement names := by
  rcases mem_withUndotted.1 member with listed | ⟨listed, inside, rfl⟩
  · exact mem_withUndotted.2 (.inr ⟨name, listed, rfl⟩)
  · rw [Key.undotted_undotted plain]
    exact member

theorem plain_of_replacement? {settings : Settings} {replacement : Option String}
    (accepted : settings.replacement? = .ok replacement) : ∀ text ∈ replacement, ¬ Key.Dotted text := by
  rw [replacement?] at accepted
  split at accepted
  · cases accepted
    simp
  · split at accepted
    · cases accepted
    · split at accepted
      · cases accepted
      · rename_i plain
        cases accepted
        rintro text ⟨⟩
        exact plain

/-- The policy is the one that the settings describe, and they do not contradict each other. -/
structure Describes (settings : Settings) (policy : Policy) : Prop where
  named : settings.gatheredName ≠ ""
  replacement : settings.replacement? = .ok policy.dotReplacement
  gathers : policy.gathers = settings.gathers
  renamesNested : policy.renamesNested = settings.renamesNested
  alwaysAsText : policy.alwaysAsText = settings.alwaysAsText
  keep : policy.keep = withUndotted policy.dotReplacement settings.listedKeep
  keepEmpty : policy.keepEmpty = withUndotted policy.dotReplacement (Names.split settings.keepEmpty)
  gatheredName : policy.gatheredName = settings.gatheredName
  maxFields : policy.maxFields = if settings.maxFields < 0 then none else some settings.maxFields.toNat
  free : ¬ (settings.gathers = true ∧ settings.gatheredName ∈ policy.keep)

theorem describes_of_toPolicy {settings : Settings} {policy : Policy} (accepted : settings.toPolicy = .ok policy) :
    settings.Describes policy := by
  simp only [toPolicy, bind, Except.bind] at accepted
  split at accepted
  · cases accepted
  · rename_i named
    split at accepted
    · cases accepted
    · rename_i replacement read
      split at accepted
      · cases accepted
      · rename_i free
        cases accepted
        exact ⟨named, read, rfl, rfl, rfl, rfl, rfl, rfl, rfl, free⟩

theorem coherent_of_toPolicy {settings : Settings} {policy : Policy} (accepted : settings.toPolicy = .ok policy) :
    policy.Coherent := by
  have describes := describes_of_toPolicy accepted
  have plain := plain_of_replacement? describes.replacement
  refine ⟨plain, ?_, ?_, ?_⟩
  · intro name member
    rw [describes.keep] at member ⊢
    exact withUndotted_closed plain member
  · intro name member
    rw [describes.keepEmpty] at member ⊢
    exact withUndotted_closed plain member
  · intro gathers member
    rw [describes.gathers] at gathers
    rw [describes.gatheredName] at member
    exact describes.free ⟨gathers, member⟩

/-- The name is in one of the two lists of kept fields. -/
def Lists (settings : Settings) (name : String) : Prop :=
  name ∈ Names.split settings.keep ∨ name ∈ Names.split settings.keepMore

theorem mem_listedKeep {settings : Settings} {name : String} :
    name ∈ settings.listedKeep ↔ settings.Lists name := by
  rw [listedKeep, Names.mem_insertAll, or_comm, Lists]

/-- The name is one of the listed ones, or it is what one of them comes to. -/
def Covers (replacement : Option String) (listed : String → Prop) (name : String) : Prop :=
  listed name ∨ ∃ spelling, listed spelling ∧ Key.undotted replacement spelling = name

/-- The lists of kept fields cover the name. -/
def Retains (settings : Settings) (policy : Policy) (name : String) : Prop :=
  Covers policy.dotReplacement settings.Lists name

theorem Describes.mem_keep_iff {settings : Settings} {policy : Policy} (describes : settings.Describes policy)
    {name : String} : name ∈ policy.keep ↔ settings.Retains policy name := by
  rw [describes.keep, mem_withUndotted]
  simp only [mem_listedKeep, Retains, Covers]

end Settings
end LogSieve
