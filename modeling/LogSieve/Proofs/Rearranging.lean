import LogSieve.Policy.Loading
import LogSieve.Proofs.Documents
/-!
# Documents that say the same

What a document comes to depends only on which settings it gives which values. Members may change
places, names may be spelled in another way, and members of unknown names may come and go
(`Edited`): each such step keeps what is set, up to the order (`Edited.assigns`), and so does a
whole run of them. A setting that is named twice is never accepted, and a list says the same as
the object that names the first settings in their order (`ofText_rearranged`).
-/
namespace LogSieve
open Json

namespace Settings

theorem ofAssignments_perm {assignments others : List Assignment} (perm : assignments.Perm others)
    (distinct : (assignments.map Assignment.setting).Nodup) : ofAssignments assignments = ofAssignments others := by
  refine perm.foldl_eq' ?_ initial
  intro a inside b otherInside settings
  by_cases same : a.setting = b.setting
  · rw [List.inj_on_of_nodup_map distinct inside otherInside same]
  · exact assign_comm settings same

section
variable {member : Member} {members others before after : List Member} {assignments : List Assignment}

/-! ## Editing -/

theorem Assigns.perm (assigns : Assigns members assignments) (perm : members.Perm others) :
    ∃ rearranged, Assigns others rearranged ∧ assignments.Perm rearranged := by
  induction perm generalizing assignments with
  | nil => exact ⟨assignments, assigns, .refl _⟩
  | cons member _ ih =>
    cases assigns with
    | sets named spelled more =>
      obtain ⟨rearranged, assigns, perm⟩ := ih more
      exact ⟨_, .sets named spelled assigns, perm.cons _⟩
    | ignored unknown more =>
      obtain ⟨rearranged, assigns, perm⟩ := ih more
      exact ⟨_, .ignored unknown assigns, perm⟩
  | swap member other members =>
    -- Two members that both set something change places with what they set; any others leave it where it is.
    cases assigns with
    | sets named spelled more =>
      cases more with
      | sets otherNamed otherSpelled more =>
        exact ⟨_, .sets otherNamed otherSpelled (.sets named spelled more), .swap ..⟩
      | ignored unknown more => exact ⟨_, .ignored unknown (.sets named spelled more), .refl _⟩
    | ignored unknown more =>
      cases more with
      | sets named spelled more => exact ⟨_, .sets named spelled (.ignored unknown more), .refl _⟩
      | ignored otherUnknown more => exact ⟨_, .ignored otherUnknown (.ignored unknown more), .refl _⟩
  | trans _ _ ih otherIh =>
    obtain ⟨between, assigns, perm⟩ := ih assigns
    obtain ⟨rearranged, assigns, otherPerm⟩ := otherIh assigns
    exact ⟨rearranged, assigns, perm.trans otherPerm⟩

/-- What stands in front of and behind a member may be set before it. -/
theorem Assigns.of_middle (assigns : Assigns (before ++ member :: after) assignments) :
    ∃ rearranged, Assigns (member :: (before ++ after)) rearranged ∧ assignments.Perm rearranged :=
  assigns.perm List.perm_middle

theorem Assigns.to_middle (assigns : Assigns (member :: (before ++ after)) assignments) :
    ∃ rearranged, Assigns (before ++ member :: after) rearranged ∧ assignments.Perm rearranged :=
  assigns.perm List.perm_middle.symm

/-- One step that keeps which settings are given which values. -/
inductive Edited : (members others : List Member) → Prop where
  | reordered {members others : List Member} (perm : members.Perm others) : Edited members others
  | respelled {before after : List Member} {key otherKey value : List Char} {setting : Setting}
      (named : Member.Names ⟨key, value⟩ setting) (otherNamed : Member.Names ⟨otherKey, value⟩ setting) :
      Edited (before ++ ⟨key, value⟩ :: after) (before ++ ⟨otherKey, value⟩ :: after)
  | added {before after : List Member} {member : Member} (unknown : member.Unknown) :
      Edited (before ++ after) (before ++ member :: after)
  | removed {before after : List Member} {member : Member} (unknown : member.Unknown) :
      Edited (before ++ member :: after) (before ++ after)

/-- A step keeps what is set, up to the order. -/
theorem Edited.assigns (edited : Edited members others) (assigns : Assigns members assignments) :
    ∃ rearranged, Assigns others rearranged ∧ assignments.Perm rearranged := by
  cases edited with
  | reordered perm => exact assigns.perm perm
  | respelled named otherNamed =>
    obtain ⟨_, assigns, perm⟩ := assigns.of_middle
    cases assigns with
    | sets settingNamed spelled more =>
      obtain rfl := named.unique settingNamed
      obtain ⟨rearranged, assigns, otherPerm⟩ := (Assigns.sets otherNamed spelled more).to_middle
      exact ⟨rearranged, assigns, perm.trans otherPerm⟩
    | ignored unknown => exact absurd unknown named.not_unknown
  | added unknown => exact (Assigns.ignored unknown assigns).to_middle
  | removed unknown =>
    obtain ⟨_, assigns, perm⟩ := assigns.of_middle
    cases assigns with
    | sets named => exact absurd unknown named.not_unknown
    | ignored _ assigns => exact ⟨_, assigns, perm⟩

/-- Any number of such steps. -/
def Edits : (members others : List Member) → Prop := Relation.ReflTransGen Edited

theorem Edits.assigns (edits : Edits members others) (assigns : Assigns members assignments) :
    ∃ rearranged, Assigns others rearranged ∧ assignments.Perm rearranged := by
  induction edits with
  | refl => exact ⟨assignments, assigns, .refl _⟩
  | tail _ edited ih =>
    obtain ⟨between, assigns, perm⟩ := ih
    obtain ⟨rearranged, assigns, otherPerm⟩ := edited.assigns assigns
    exact ⟨rearranged, assigns, perm.trans otherPerm⟩

/-- An edited object is read as the same settings. -/
theorem parse_of_edits {text other : String} {settings : Settings} (writes : WritesObject members text)
    (otherWrites : WritesObject others other) (edits : Edits members others) (parsed : parse text = .ok settings) :
    parse other = .ok settings := by
  obtain ⟨assignments, assigns, distinct, rfl⟩ := (parse_object_iff writes).1 parsed
  obtain ⟨rearranged, otherAssigns, perm⟩ := edits.assigns assigns
  have otherDistinct := (perm.map Assignment.setting).nodup_iff.1 distinct
  exact (parse_object_iff otherWrites).2
    ⟨rearranged, otherAssigns, otherDistinct, ofAssignments_perm perm distinct⟩

/-! ## Settings that are named twice -/

theorem Assigns.sublist (assigns : Assigns members assignments) (sublist : others.Sublist members) :
    ∃ fewer, Assigns others fewer ∧ fewer.Sublist assignments := by
  induction sublist generalizing assignments with
  | slnil => exact ⟨assignments, assigns, .refl _⟩
  | cons _ _ ih =>
    cases assigns with
    | sets _ _ more =>
      obtain ⟨fewer, assigns, sublist⟩ := ih more
      exact ⟨fewer, assigns, sublist.cons _⟩
    | ignored _ more => exact ih more
  | cons_cons _ _ ih =>
    cases assigns with
    | sets named spelled more =>
      obtain ⟨fewer, assigns, sublist⟩ := ih more
      exact ⟨_, .sets named spelled assigns, sublist.cons_cons _⟩
    | ignored unknown more =>
      obtain ⟨fewer, assigns, sublist⟩ := ih more
      exact ⟨_, .ignored unknown assigns, sublist⟩

/-- Two of the members name the same setting, in the same spelling or in two. -/
def NamesTwice (members : List Member) : Prop :=
  ∃ setting member other, [member, other].Sublist members ∧ member.Names setting ∧ other.Names setting

theorem not_distinct_of_namesTwice (assigns : Assigns members assignments) (twice : NamesTwice members) :
    ¬ (assignments.map Assignment.setting).Nodup := by
  obtain ⟨setting, member, other, sublist, named, otherNamed⟩ := twice
  obtain ⟨fewer, assigns, fewerSublist⟩ := assigns.sublist sublist
  intro distinct
  have fewerDistinct := distinct.sublist (fewerSublist.map Assignment.setting)
  cases assigns with
  | ignored unknown => exact named.not_unknown unknown
  | sets settingNamed _ more =>
    cases more with
    | ignored unknown => exact otherNamed.not_unknown unknown
    | sets otherSettingNamed =>
      have same := (settingNamed.unique named).trans (otherNamed.unique otherSettingNamed)
      simp [same] at fewerDistinct

/-! ## Lists and objects -/

/-- Members that name settings one by one set what their values give. -/
theorem assigns_iff_of_names {settings : List Setting} (names : List.Forall₂ Member.Names members settings) :
    Assigns members assignments ↔
      assignments.map Assignment.setting = settings ∧
        List.Forall₂ Assignment.SpelledBy assignments (members.map Member.value) := by
  induction names generalizing assignments with
  | nil =>
    constructor
    · rintro ⟨⟩
      exact ⟨rfl, .nil⟩
    · rintro ⟨nothing, _⟩
      obtain rfl := List.map_eq_nil_iff.1 nothing
      exact .nil
  | cons named _ ih =>
    constructor
    · intro assigns
      cases assigns with
      | sets settingNamed spelled more =>
        obtain ⟨inTurn, othersSpelled⟩ := ih.1 more
        obtain rfl := named.unique settingNamed
        exact ⟨congrArg _ inTurn, .cons spelled othersSpelled⟩
      | ignored unknown => exact absurd unknown named.not_unknown
    · rintro ⟨inTurn, spelled⟩
      obtain _ | ⟨headSpelled, othersSpelled⟩ := spelled
      obtain ⟨rfl, othersInTurn⟩ := List.cons.inj inTurn
      exact .sets named headSpelled (ih.2 ⟨othersInTurn, othersSpelled⟩)

/-- The members name the first settings, in their order. -/
def NamesInTurn (members : List Member) : Prop :=
  List.Forall₂ Member.Names members (Setting.all.take members.length)

/-- A list is read as the same settings as the object that names the first settings for its items. -/
theorem parse_list_iff_object {listText objectText : String} {settings : Settings}
    (writesList : WritesList (members.map Member.value) listText) (writesObject : WritesObject members objectText)
    (names : NamesInTurn members) : parse listText = .ok settings ↔ parse objectText = .ok settings := by
  have once : Setting.all.Nodup := by decide
  rw [parse_list_iff writesList, parse_object_iff writesObject]
  refine exists_congr fun assignments => ?_
  constructor
  · rintro ⟨⟨spelled, inTurn⟩, rfl⟩
    rw [List.length_map] at inTurn
    exact ⟨(assigns_iff_of_names names).2 ⟨inTurn, spelled⟩, inTurn ▸ once.sublist (List.take_sublist _ _), rfl⟩
  · rintro ⟨assigns, _, rfl⟩
    obtain ⟨inTurn, spelled⟩ := (assigns_iff_of_names names).1 assigns
    rw [← List.length_map Member.value] at inTurn
    exact ⟨⟨spelled, inTurn⟩, rfl⟩

end

end Settings

/-! ## Policies -/

namespace Policy
open Settings

/-- Settings were read, whether they make a policy or contradict each other. -/
def Decides (outcome : Except Error Policy) : Prop :=
  (∃ policy, outcome = .ok policy) ∨ ∃ cause, outcome = .error (.inconsistent cause)

/-- No settings were read. -/
def Refuses (outcome : Except Error Policy) : Prop := ∃ error, outcome = .error (.configSyntax error)

section
variable {text : String}

theorem ofText_of_parse {settings : Settings} (parsed : Settings.parse text = .ok settings) :
    ofText text = settings.toPolicy.mapError .inconsistent := by
  rw [ofText, parsed]

theorem decides_iff : Decides (ofText text) ↔ ∃ settings, Settings.parse text = .ok settings := by
  rw [Decides, ofText]
  cases Settings.parse text with
  | error error => simp
  | ok settings =>
    cases made : settings.toPolicy with
    | error cause => simp [made]
    | ok policy => simp [made]

/-- A text is refused exactly if no settings were read. -/
theorem refuses_iff : Refuses (ofText text) ↔ ¬ Decides (ofText text) := by
  rw [decides_iff, Refuses, ofText]
  cases Settings.parse text with
  | error error => simp
  | ok settings =>
    cases made : settings.toPolicy with
    | error cause => simp [made]
    | ok policy => simp [made]

end

/-- What a document comes to depends only on which settings it gives which values, where a setting has three
    spellings. An object keeps it through any edits that leave these alone, an object that names a setting twice comes
    to nothing, and a list comes to the same as an object that names the first settings, at most all nine of them, for
    its items. -/
theorem ofText_rearranged :
    (∀ setting : Setting, setting.spellings.length = 3 ∧ setting.spellings.Nodup ∧
      ∀ spelling ∈ setting.spellings, ∀ other : Setting,
        Setting.letters spelling = Setting.letters other.name ↔ setting = other) ∧
    (∀ text, Decides (ofText text) → (∃ members, WritesObject members text) ∨ ∃ items, WritesList items text) ∧
    (∀ text other members others, WritesObject members text → WritesObject others other → Edits members others →
      Decides (ofText text) → ofText other = ofText text) ∧
    (∀ text members, WritesObject members text → NamesTwice members → Refuses (ofText text)) ∧
    ∀ listText objectText members, WritesList (members.map Member.value) listText → WritesObject members objectText →
      NamesInTurn members →
        (Decides (ofText listText) ∧ ofText objectText = ofText listText) ∨
          (Refuses (ofText listText) ∧ Refuses (ofText objectText)) := by
  refine ⟨Setting.spellings_exact, ?_, ?_, ?_, ?_⟩
  · intro text decided
    obtain ⟨settings, parsed⟩ := decides_iff.1 decided
    obtain ⟨members, _, writes, _⟩ | ⟨items, _, writes, _⟩ := exists_of_parse parsed
    · exact .inl ⟨members, writes⟩
    · exact .inr ⟨items, writes⟩
  · intro text other members others writes otherWrites edits decided
    obtain ⟨settings, parsed⟩ := decides_iff.1 decided
    rw [ofText_of_parse parsed, ofText_of_parse (parse_of_edits writes otherWrites edits parsed)]
  · intro text members writes twice
    rw [refuses_iff, decides_iff]
    rintro ⟨settings, parsed⟩
    obtain ⟨assignments, assigns, distinct, _⟩ := (parse_object_iff writes).1 parsed
    exact not_distinct_of_namesTwice assigns twice distinct
  · intro listText objectText members writesList writesObject names
    have same : ∀ settings, Settings.parse listText = .ok settings ↔ Settings.parse objectText = .ok settings :=
      fun _ => parse_list_iff_object writesList writesObject names
    by_cases decided : Decides (ofText listText)
    · obtain ⟨settings, parsed⟩ := decides_iff.1 decided
      exact .inl ⟨decided, by rw [ofText_of_parse parsed, ofText_of_parse ((same settings).1 parsed)]⟩
    · have objectRefused : ¬ Decides (ofText objectText) := by
        rwa [decides_iff, ← exists_congr same, ← decides_iff]
      exact .inr ⟨refuses_iff.2 decided, refuses_iff.2 objectRefused⟩

/-- The member that switches gathering on, in some spelling. -/
def gatheringMember (spelling : String) : Member := ⟨writeString spelling, ['t', 'r', 'u', 'e']⟩

/-- A member of an unknown name, whose value has half of a surrogate pair. -/
def oddMember : Member := ⟨writeString "odd", ['"', '\\', 'u', 'd', '8', '0', '0', '"']⟩

theorem wellFormed_gatheringMember (spelling : String) : (gatheringMember spelling).WellFormed :=
  ⟨shapedString_of_spells (spellsString_writeString spelling), .true⟩

theorem names_gatheringMember {spelling : String} (known : spelling ∈ Setting.gathers.spellings) :
    (gatheringMember spelling).Names .gathers := ⟨spelling, known, spellsString_writeString spelling⟩

theorem wellFormed_oddMember : oddMember.WellFormed := by
  have half : ShapedCharacters ['\\', 'u', 'd', '8', '0', '0'] := .unit (by decide) .nil
  exact ⟨shapedString_of_spells (spellsString_writeString _), .string ⟨_, half, rfl⟩⟩

/-- Gathering may be switched on in any spelling, beside a member that means nothing, or in a list, but not twice. -/
theorem ofText_rearranged_gathering :
    let policy := { initial with gathers := true }
    ofText "\x7b\"use_undefined\":true\x7d" = .ok policy ∧
      ofText "\x7b\"odd\":\"\\ud800\", \"useUndefined\":true\x7d" = .ok policy ∧
      Refuses (ofText "\x7b\"use_undefined\":true, \"useUndefined\":true\x7d") ∧
      ofText "[true]" = .ok policy := by
  intro policy
  have made : ofText "\x7b\"use_undefined\":true\x7d" = .ok policy := rfl
  obtain ⟨_, _, edited, twice, inTurn⟩ := ofText_rearranged
  have alone (spelling : String) : ∀ member ∈ [gatheringMember spelling], member.WellFormed := by
    simpa using wellFormed_gatheringMember spelling
  have plain {member : Member} : member.WrittenAs (member.key ++ ':' :: member.value) :=
    ⟨[], [], spaces_nil, spaces_nil, rfl⟩
  have space : Spaces [' '] := by simp [Spaces, isSpace]
  have writes : WritesObject [gatheringMember "use_undefined"] "\x7b\"use_undefined\":true\x7d" :=
    ⟨alone _, [], _, [], spaces_nil, ⟨_, .first spaces_nil plain (.ends spaces_nil), rfl⟩, spaces_nil, rfl⟩
  have otherWrites : WritesObject [oddMember, gatheringMember "useUndefined"]
      "\x7b\"odd\":\"\\ud800\", \"useUndefined\":true\x7d" :=
    ⟨List.forall_mem_cons.2 ⟨wellFormed_oddMember, alone _⟩, [], _, [], spaces_nil,
      ⟨_, .first spaces_nil plain (.comma spaces_nil space plain (.ends spaces_nil)), rfl⟩, spaces_nil, rfl⟩
  have twiceWrites : WritesObject [gatheringMember "use_undefined", gatheringMember "useUndefined"]
      "\x7b\"use_undefined\":true, \"useUndefined\":true\x7d" :=
    ⟨List.forall_mem_cons.2 ⟨wellFormed_gatheringMember _, alone _⟩, [], _, [], spaces_nil,
      ⟨_, .first spaces_nil plain (.comma spaces_nil space plain (.ends spaces_nil)), rfl⟩, spaces_nil, rfl⟩
  have listWrites : WritesList [['t', 'r', 'u', 'e']] "[true]" :=
    ⟨by simpa using Shaped.true, [], _, [], spaces_nil, ⟨_, .first spaces_nil rfl (.ends spaces_nil), rfl⟩,
      spaces_nil, rfl⟩
  have named : (gatheringMember "use_undefined").Names .gathers := names_gatheringMember (by decide)
  have otherNamed : (gatheringMember "useUndefined").Names .gathers := names_gatheringMember (by decide)
  have unknown : oddMember.Unknown := by
    refine ⟨"odd", spellsString_writeString _, fun setting => ?_⟩
    cases setting <;> decide
  have decided : Decides (ofText "\x7b\"use_undefined\":true\x7d") := .inl ⟨policy, made⟩
  have respelled : Edited [gatheringMember "use_undefined"] [gatheringMember "useUndefined"] :=
    @Edited.respelled [] [] _ _ _ _ named otherNamed
  have added : Edited [gatheringMember "useUndefined"] [oddMember, gatheringMember "useUndefined"] :=
    @Edited.added [] _ _ unknown
  have edits : Edits [gatheringMember "use_undefined"] [oddMember, gatheringMember "useUndefined"] :=
    .tail (.single respelled) added
  refine ⟨made, (edited _ _ _ _ writes otherWrites edits decided).trans made, ?_, ?_⟩
  · exact twice _ _ twiceWrites ⟨.gathers, _, _, .refl _, named, otherNamed⟩
  · have answer := inTurn "[true]" _ [gatheringMember "use_undefined"] listWrites writes (.cons named .nil)
    rcases answer with ⟨_, same⟩ | ⟨_, refused⟩
    · exact same.symm.trans made
    · exact absurd decided (refuses_iff.1 refused)

end Policy
end LogSieve
