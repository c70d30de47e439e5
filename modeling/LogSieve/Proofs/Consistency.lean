import LogSieve.Proofs.Policy
/-!
# Consistent settings

Settings make a policy exactly if they do not contradict each other (`exists_toPolicy_iff`). The
policy then keeps the listed names and what they come to without dots, and its names are closed
under that (`toPolicy_exact`): a record that went through once is told by the same names.
-/
namespace LogSieve.Settings
variable {settings : Settings} {policy : Policy}

/-- What stands for a dot, unless dots stay. -/
def replacement (settings : Settings) : Option String :=
  if settings.dotReplacement = dotsStay then none else some settings.dotReplacement

/-- The settings do not contradict each other. -/
structure Consistent (settings : Settings) : Prop where
  named : settings.gatheredName ≠ ""
  replaces : settings.dotReplacement ≠ ""
  plain : settings.dotReplacement = dotsStay ∨ ¬ Key.Dotted settings.dotReplacement
  free : settings.gathers = true → ¬ Covers settings.replacement settings.Lists settings.gatheredName

theorem replacement?_eq_ok_iff {replacement : Option String} :
    settings.replacement? = .ok replacement ↔
      settings.dotReplacement ≠ "" ∧ (settings.dotReplacement = dotsStay ∨ ¬ Key.Dotted settings.dotReplacement) ∧
        replacement = settings.replacement := by
  rw [replacement?, Settings.replacement]
  by_cases stay : settings.dotReplacement = dotsStay
  · have named : dotsStay ≠ "" := by decide
    simp [stay, named, eq_comm]
  · by_cases empty : settings.dotReplacement = ""
    · simp [empty, dotsStay]
    · by_cases dotted : Key.Dotted settings.dotReplacement
      · simp [stay, empty, dotted]
      · simp [stay, empty, dotted, eq_comm]

theorem Describes.replacement_eq (describes : settings.Describes policy) :
    policy.dotReplacement = settings.replacement :=
  (replacement?_eq_ok_iff.1 describes.replacement).2.2

/-- Consistent settings are accepted, and no others are. -/
theorem exists_toPolicy_iff : (∃ policy, settings.toPolicy = .ok policy) ↔ settings.Consistent := by
  constructor
  · rintro ⟨policy, accepted⟩
    have describes := describes_of_toPolicy accepted
    obtain ⟨replaces, plain, _⟩ := replacement?_eq_ok_iff.1 describes.replacement
    refine ⟨describes.named, replaces, plain, fun gathers covered => describes.free ⟨gathers, ?_⟩⟩
    rw [← describes.replacement_eq] at covered
    exact describes.mem_keep_iff.2 covered
  · rintro ⟨named, replaces, plain, free⟩
    have read := replacement?_eq_ok_iff.2 ⟨replaces, plain, rfl⟩
    have free : ¬ (settings.gathers = true ∧
        settings.gatheredName ∈ withUndotted settings.replacement settings.listedKeep) := by
      rintro ⟨gathers, member⟩
      refine free gathers ?_
      simpa only [mem_withUndotted, mem_listedKeep, Covers] using member
    simp only [toPolicy, if_neg named, read, if_neg free, bind, Except.bind]
    exact ⟨_, rfl⟩

/-- What a policy promises of the settings that it was made from. -/
structure Establishes (settings : Settings) (policy : Policy) : Prop where
  gathers : policy.gathers = settings.gathers
  renamesNested : policy.renamesNested = settings.renamesNested
  alwaysAsText : policy.alwaysAsText = settings.alwaysAsText
  gatheredName : policy.gatheredName = settings.gatheredName
  replacement : policy.dotReplacement = settings.replacement
  keep : ∀ name, name ∈ policy.keep ↔ Covers policy.dotReplacement settings.Lists name
  keepEmpty : ∀ name, name ∈ policy.keepEmpty ↔
    Covers policy.dotReplacement (· ∈ Names.split settings.keepEmpty) name
  keepClosed : ∀ name ∈ policy.keep, Key.undotted policy.dotReplacement name ∈ policy.keep
  keepEmptyClosed : ∀ name ∈ policy.keepEmpty, Key.undotted policy.dotReplacement name ∈ policy.keepEmpty
  undottedOnce : ∀ name, Key.undotted policy.dotReplacement (Key.undotted policy.dotReplacement name) =
    Key.undotted policy.dotReplacement name
  alters : ∀ name, Key.undotted policy.dotReplacement name ≠ name ↔
    policy.dotReplacement.isSome = true ∧ '.' ∈ name.toList
  unlimited : policy.maxFields = none ↔ settings.maxFields < 0
  limited : ∀ greatest, policy.maxFields = some greatest → settings.maxFields = greatest

/-- Settings are accepted exactly if they are consistent, and the policy that they make establishes them. -/
theorem toPolicy_exact (settings : Settings) :
    ((∃ policy, settings.toPolicy = .ok policy) ↔ settings.Consistent) ∧
      ∀ policy, settings.toPolicy = .ok policy → settings.Establishes policy := by
  refine ⟨exists_toPolicy_iff, fun policy accepted => ?_⟩
  have describes := describes_of_toPolicy accepted
  have coherent := coherent_of_toPolicy accepted
  refine ⟨describes.gathers, describes.renamesNested, describes.alwaysAsText, describes.gatheredName,
    describes.replacement_eq, fun _ => describes.mem_keep_iff, ?_, coherent.keepClosed, coherent.keepEmptyClosed,
    coherent.rename_rename, fun name => ?_, ?_, ?_⟩
  · intro name
    rw [describes.keepEmpty]
    exact mem_withUndotted
  · rw [Ne, Key.undotted_eq_self_iff coherent.plain, Classical.not_not]
    rfl
  · rw [describes.maxFields]
    split <;> simp_all
  · intro greatest limit
    rw [describes.maxFields] at limit
    split at limit
    · cases limit
    · cases limit
      omega

/-- A listed name with a dot, a reserved name, and no room for a gathered field. -/
def crampedSettings (gatheredName : String) : Settings :=
  { initial with
    gathers := true, keep := "a.b", keepEmpty := ".c", gatheredName, dotReplacement := "_", maxFields := 0 }

/-- The policy of these settings where the reserved name is free. -/
def crampedPolicy : Policy :=
  { Policy.initial with
    gathers := true, keep := ["a.b", "a_b"], keepEmpty := [".c", "_c"], gatheredName := "rest",
    dotReplacement := some "_", maxFields := some 0 }

/-- A listed name with a dot is kept in both spellings, so the reserved name can be neither. -/
theorem toPolicy_exact_dotted :
    (crampedSettings "rest").toPolicy = .ok crampedPolicy ∧ (crampedSettings "rest").Establishes crampedPolicy ∧
      (crampedSettings "a_b").toPolicy = .error (.keptName "a_b") ∧ ¬ (crampedSettings "a_b").Consistent := by
  have accepted : (crampedSettings "rest").toPolicy = .ok crampedPolicy := rfl
  have refused : (crampedSettings "a_b").toPolicy = .error (.keptName "a_b") := rfl
  refine ⟨accepted, (toPolicy_exact _).2 _ accepted, refused, fun consistent => ?_⟩
  obtain ⟨policy, impossible⟩ := (toPolicy_exact _).1.2 consistent
  rw [refused] at impossible
  cases impossible

end LogSieve.Settings
