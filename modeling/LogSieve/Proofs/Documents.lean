import LogSieve.Proofs.Assignments
import LogSieve.Proofs.Json.Apart
/-!
# What a configuration document sets

A document is an object or a list, told by the texts of its parts (`WritesObject`, `WritesList`).
An object is read exactly if each of its members sets something or has a name that is no
setting's, and no setting is named twice (`parse_object_iff`); a list is read exactly if its
items are values for the first settings in their order (`parse_list_iff`). Nothing else is read
(`exists_of_parse`).
-/
namespace LogSieve.Settings
open LogSieve.Json

/-! ## Objects -/

/-- What an object with these members sets, in their order: members of unknown names set nothing. -/
inductive Assigns : List Member → List Assignment → Prop where
  | nil : Assigns [] []
  | sets {member : Member} {members : List Member} {assignment : Assignment} {assignments : List Assignment}
      (named : member.Names assignment.setting) (spelled : assignment.SpelledBy member.value)
      (others : Assigns members assignments) : Assigns (member :: members) (assignment :: assignments)
  | ignored {member : Member} {members : List Member} {assignments : List Assignment} (unknown : member.Unknown)
      (others : Assigns members assignments) : Assigns (member :: members) assignments

/-- Each setting is set once, and none that has been named before. -/
def Fresh (seen : List Setting) (assignments : List Assignment) : Prop :=
  (∀ assignment ∈ assignments, assignment.setting ∉ seen) ∧ (assignments.map Assignment.setting).Nodup

theorem fresh_cons_iff {seen : List Setting} {assignment : Assignment} {later : List Assignment} :
    Fresh seen (assignment :: later) ↔
      assignment.setting ∉ seen ∧ Fresh (assignment.setting :: seen) later := by
  constructor
  · rintro ⟨fresh, distinct⟩
    obtain ⟨here, laterFresh⟩ := List.forall_mem_cons.1 fresh
    obtain ⟨once, laterDistinct⟩ := List.nodup_cons.1 distinct
    refine ⟨here, fun other member again => ?_, laterDistinct⟩
    rcases List.mem_cons.1 again with same | before
    · exact once (same ▸ List.mem_map_of_mem member)
    · exact laterFresh other member before
  · rintro ⟨here, laterFresh, laterDistinct⟩
    refine ⟨List.forall_mem_cons.2 ⟨here, fun other member before => ?_⟩, List.nodup_cons.2 ⟨?_, laterDistinct⟩⟩
    · exact laterFresh other member (List.mem_cons_of_mem _ before)
    · intro again
      obtain ⟨other, member, same⟩ := List.mem_map.1 again
      exact laterFresh other member (same ▸ List.mem_cons_self)

section
variable {bound : Nat} {seen : List Setting} {first : Bool} {text rest : List Char}

/-- A member is read where its name stands next, if the members behind it are. -/
theorem readNamed_member {member : Member} {members : List Member} {assignments : List Assignment}
    {gap space behind : List Char}
    (next : ∀ name, SpellsString name member.key →
      nextKey first text = .ok (some name, gap ++ ':' :: (space ++ (member.value ++ behind))))
    (gapSpaces : Spaces gap) (spaces : Spaces space) (ends : Ends behind)
    (others : ∀ {seen assignments}, Assigns members assignments → Fresh seen assignments →
      readNamed bound seen false behind = .ok (assignments, rest))
    (assigns : Assigns (member :: members) assignments) (shaped : Shaped member.value)
    (fresh : Fresh seen assignments) : readNamed (bound + 1) seen first text = .ok (assignments, rest) := by
  cases assigns with
  | @sets _ _ assignment later named spelled assigns =>
    obtain ⟨name, spelling, nameSpelled⟩ := named
    obtain ⟨here, laterFresh⟩ := fresh_cons_iff.1 fresh
    have read := (takes_readAssignment assignment.setting).reads spaces ⟨rfl, spelled⟩ ends
    rw [readNamed, next name nameSpelled]
    simp only [bind, Except.bind, Setting.ofSpelling?_eq_some_iff.2 spelling, if_neg here,
      afterColon_spaces gapSpaces, read, others assigns laterFresh]
  | ignored unknown assigns =>
    obtain ⟨name, nameSpelled, unknown⟩ := unknown
    rw [readNamed, next name nameSpelled]
    simp only [bind, Except.bind, Setting.ofSpelling?_eq_none_iff.2 unknown, afterColon_spaces gapSpaces,
      skip_shaped spaces shaped ends]
    exact others assigns fresh

/-- Members that set each setting at most once are read as what they set. -/
theorem readNamed_separated {members : List Member} {assignments : List Assignment}
    (separated : Separated '\x7d' Member.WrittenAs first members text) (assigns : Assigns members assignments)
    (shaped : ∀ member ∈ members, Shaped member.value) (fresh : Fresh seen assignments)
    (short : text.length ≤ bound) (rest : List Char) :
    readNamed bound seen first (text ++ rest) = .ok (assignments, rest) := by
  -- Every round takes at least the character in front of the members that are left.
  induction separated generalizing bound seen assignments with
  | ends spaces =>
    cases assigns
    simp only [List.length_append, List.length_cons] at short
    obtain ⟨bound, rfl⟩ : ∃ inner, bound = inner + 1 := ⟨bound - 1, by omega⟩
    rw [List.append_assoc, readNamed, List.singleton_append, nextKey_end spaces]
    rfl
  | first spaces held others ih =>
    obtain ⟨memberShaped, othersShaped⟩ := List.forall_mem_cons.1 shaped
    obtain ⟨gap, space, gapSpaces, spaceSpaces, rfl⟩ := held
    simp only [List.length_append, List.length_cons] at short
    obtain ⟨bound, rfl⟩ : ∃ inner, bound = inner + 1 := ⟨bound - 1, by omega⟩
    simp only [List.append_assoc, List.cons_append]
    exact readNamed_member (fun name spelled => nextKey_first spaces spelled _) gapSpaces spaceSpaces
      (others.ends_append (.inr rfl) rest) (fun assigns fresh => ih assigns othersShaped fresh (by omega))
      assigns memberShaped fresh
  | comma commaSpaces spaces held others ih =>
    obtain ⟨memberShaped, othersShaped⟩ := List.forall_mem_cons.1 shaped
    obtain ⟨gap, space, gapSpaces, spaceSpaces, rfl⟩ := held
    simp only [List.length_append, List.length_cons] at short
    obtain ⟨bound, rfl⟩ : ∃ inner, bound = inner + 1 := ⟨bound - 1, by omega⟩
    simp only [List.append_assoc, List.cons_append]
    exact readNamed_member (fun name spelled => nextKey_comma commaSpaces spaces spelled _) gapSpaces spaceSpaces
      (others.ends_append (.inr rfl) rest) (fun assigns fresh => ih assigns othersShaped fresh (by omega))
      assigns memberShaped fresh

/-- Where a name was found and members are written behind its value, the members are written that begin with it. -/
theorem exists_separated_member {members : List Member} {gap key behind nameGap space value later : List Char}
    (gapSpaces : Spaces gap)
    (found : (first = true ∧ text = gap ++ (key ++ behind)) ∨
      (first = false ∧ ∃ before, Spaces before ∧ text = gap ++ ',' :: (before ++ (key ++ behind))))
    (nameSpaces : Spaces nameGap) (spaces : Spaces space)
    (separated : Separated '\x7d' Member.WrittenAs false members later)
    (written : behind = nameGap ++ ':' :: (space ++ (value ++ (later ++ rest)))) :
    ∃ body, Separated '\x7d' Member.WrittenAs first (⟨key, value⟩ :: members) body ∧ text = body ++ rest := by
  have held : (Member.mk key value).WrittenAs (key ++ (nameGap ++ ':' :: (space ++ value))) :=
    ⟨nameGap, space, nameSpaces, spaces, rfl⟩
  rcases found with ⟨rfl, rfl⟩ | ⟨rfl, before, beforeSpaces, rfl⟩
  · exact ⟨_, .first gapSpaces held separated, by simp [written]⟩
  · exact ⟨_, .comma gapSpaces beforeSpaces held separated, by simp [written]⟩

/-- What is read is what some members set, each setting once and none that has been named before. -/
theorem of_readNamed {assignments : List Assignment} (read : readNamed bound seen first text = .ok (assignments, rest)) :
    ∃ members body, (∀ member ∈ members, member.WellFormed) ∧
      Separated '\x7d' Member.WrittenAs first members body ∧ Assigns members assignments ∧ Fresh seen assignments ∧
      text = body ++ rest := by
  induction bound generalizing seen first text assignments with
  | zero => cases read
  | succ bound ih =>
    rw [readNamed] at read
    obtain ⟨⟨name, behind⟩, next, read⟩ := bind_eq_ok_iff.1 read
    obtain ⟨gap, gapSpaces, ⟨rfl, ended⟩ | ⟨name, key, rfl, keySpelled, found⟩⟩ := nextKey_cases next
    · cases read
      exact ⟨[], _, by simp, .ends gapSpaces, .nil, ⟨by simp, by simp⟩, by simp [ended]⟩
    dsimp only at read
    split at read
    · rename_i unknown
      obtain ⟨valueText, colon, valueRead⟩ := bind_eq_ok_iff.1 read
      obtain ⟨later, skipped, laterRead⟩ := bind_eq_ok_iff.1 valueRead
      obtain ⟨nameGap, nameSpaces, rfl⟩ := eq_of_afterColon colon
      obtain ⟨space, value, spaces, shaped, rfl⟩ := shaped_of_skipValue skipped
      obtain ⟨members, body, fine, separated, assigns, fresh, rfl⟩ := ih laterRead
      obtain ⟨whole, wholeSeparated, rfl⟩ :=
        exists_separated_member gapSpaces found nameSpaces spaces separated rfl
      have headFine : (Member.mk key value).WellFormed := ⟨shapedString_of_spells keySpelled, shaped⟩
      have headUnknown : (Member.mk key value).Unknown :=
        ⟨name, keySpelled, Setting.ofSpelling?_eq_none_iff.1 unknown⟩
      exact ⟨_, whole, List.forall_mem_cons.2 ⟨headFine, fine⟩, wholeSeparated, .ignored headUnknown assigns, fresh,
        rfl⟩
    · rename_i setting known
      split at read
      · cases read
      rename_i here
      obtain ⟨valueText, colon, behindColon⟩ := bind_eq_ok_iff.1 read
      obtain ⟨⟨assignment, afterValue⟩, valueRead, behindValue⟩ := bind_eq_ok_iff.1 behindColon
      obtain ⟨⟨later, _⟩, laterRead, result⟩ := bind_eq_ok_iff.1 behindValue
      cases result
      obtain ⟨nameGap, nameSpaces, rfl⟩ := eq_of_afterColon colon
      obtain ⟨space, value, spaces, ⟨rfl, spelled⟩, rfl⟩ := (takes_readAssignment _).spelled valueRead
      obtain ⟨members, body, fine, separated, assigns, fresh, rfl⟩ := ih laterRead
      obtain ⟨whole, wholeSeparated, rfl⟩ :=
        exists_separated_member gapSpaces found nameSpaces spaces separated rfl
      have headFine : (Member.mk key value).WellFormed := ⟨shapedString_of_spells keySpelled, spelled.shaped⟩
      have named : (Member.mk key value).Names assignment.setting :=
        ⟨name, Setting.ofSpelling?_eq_some_iff.1 known, keySpelled⟩
      exact ⟨_, whole, List.forall_mem_cons.2 ⟨headFine, fine⟩, wholeSeparated, .sets named spelled assigns,
        fresh_cons_iff.2 ⟨here, fresh⟩, rfl⟩

end

/-! ## Lists -/

/-- The items are values for the first settings, in their order. -/
structure AssignsInTurn (items : List (List Char)) (assignments : List Assignment) : Prop where
  spelled : List.Forall₂ Assignment.SpelledBy assignments items
  inTurn : assignments.map Assignment.setting = Setting.all.take items.length

theorem shaped_of_spelledBy {items : List (List Char)} {assignments : List Assignment}
    (spelled : List.Forall₂ Assignment.SpelledBy assignments items) : ∀ item ∈ items, Shaped item := by
  induction spelled with
  | nil => simp
  | cons itemSpelled _ ih => exact List.forall_mem_cons.2 ⟨itemSpelled.shaped, ih⟩

section
variable {left : List Setting} {first : Bool} {text rest : List Char}

theorem readListed_end {gap : List Char} (spaces : Spaces gap) (rest : List Char) :
    readListed left first (gap ++ ']' :: rest) = .ok ([], rest) := by
  cases left with
  | nil =>
    rw [readListed, readListEnd, skipSpace_append spaces, skipSpace_cons rfl]
    rfl
  | cons setting left =>
    rw [readListed, nextItem_end spaces]
    rfl

theorem readListed_item {assignment : Assignment} {later : List Assignment} {item behind : List Char}
    (next : nextItem first text = .ok (true, item ++ behind)) (ends : Ends behind)
    (spelled : assignment.SpelledBy item) (others : readListed left false behind = .ok (later, rest)) :
    readListed (assignment.setting :: left) first text = .ok (assignment :: later, rest) := by
  have read : readAssignment assignment.setting (item ++ behind) = .ok (assignment, behind) :=
    (takes_readAssignment assignment.setting).reads spaces_nil ⟨rfl, spelled⟩ ends
  rw [readListed, next]
  simp only [bind, Except.bind, if_true, read, others]

/-- Values for the settings that are left are read as such. -/
theorem readListed_separated {items : List (List Char)} {assignments : List Assignment}
    (separated : Separated ']' Eq first items text) (spelled : List.Forall₂ Assignment.SpelledBy assignments items)
    (inTurn : assignments.map Assignment.setting = left.take items.length) (rest : List Char) :
    readListed left first (text ++ rest) = .ok (assignments, rest) := by
  induction separated generalizing left assignments with
  | ends spaces =>
    cases spelled
    rw [List.append_assoc]
    exact readListed_end spaces rest
  | first spaces held others ih =>
    obtain rfl := held
    obtain _ | ⟨itemSpelled, othersSpelled⟩ := spelled
    obtain _ | ⟨setting, left⟩ := left
    · cases inTurn
    obtain ⟨rfl, othersInTurn⟩ := List.cons.inj inTurn
    simp only [List.append_assoc]
    exact readListed_item (nextItem_first spaces (begins_of_shaped itemSpelled.shaped) _)
      (others.ends_append (.inl rfl) rest) itemSpelled (ih othersSpelled othersInTurn)
  | comma commaSpaces spaces held others ih =>
    obtain rfl := held
    obtain _ | ⟨itemSpelled, othersSpelled⟩ := spelled
    obtain _ | ⟨setting, left⟩ := left
    · cases inTurn
    obtain ⟨rfl, othersInTurn⟩ := List.cons.inj inTurn
    simp only [List.append_assoc, List.cons_append]
    exact readListed_item (nextItem_comma commaSpaces spaces (begins_of_shaped itemSpelled.shaped) _)
      (others.ends_append (.inl rfl) rest) itemSpelled (ih othersSpelled othersInTurn)

theorem of_readListEnd {assignments : List Assignment} (read : readListEnd text = .ok (assignments, rest)) :
    assignments = [] ∧ ∃ gap, Spaces gap ∧ text = gap ++ ']' :: rest := by
  obtain ⟨gap, spaces, parts⟩ := eq_append_skipSpace text
  rw [readListEnd] at read
  split at read
  · cases read
  rename_i c more front
  rw [front] at parts
  split at read
  · rename_i bracket
    cases read
    exact ⟨rfl, gap, spaces, bracket ▸ parts⟩
  split at read
  · split at read <;> cases read
  · cases read

/-- What is read is what values for the settings that are left give. -/
theorem of_readListed {assignments : List Assignment} (read : readListed left first text = .ok (assignments, rest)) :
    ∃ items body, Separated ']' Eq first items body ∧ List.Forall₂ Assignment.SpelledBy assignments items ∧
      assignments.map Assignment.setting = left.take items.length ∧ text = body ++ rest := by
  induction left generalizing first text assignments with
  | nil =>
    obtain ⟨rfl, gap, spaces, rfl⟩ := of_readListEnd read
    exact ⟨[], _, .ends spaces, .nil, rfl, by simp⟩
  | cons setting left ih =>
    rw [readListed] at read
    obtain ⟨⟨goesOn, behind⟩, next, read⟩ := bind_eq_ok_iff.1 read
    obtain ⟨gap, gapSpaces, ⟨rfl, ended⟩ | ⟨rfl, begins⟩⟩ := nextItem_cases next
    · cases read
      exact ⟨[], _, .ends gapSpaces, .nil, rfl, by simp [ended]⟩
    · obtain ⟨⟨assignment, afterValue⟩, valueRead, behindValue⟩ := bind_eq_ok_iff.1 read
      obtain ⟨⟨later, _⟩, laterRead, result⟩ := bind_eq_ok_iff.1 behindValue
      cases result
      obtain ⟨before, item, spaces, ⟨rfl, spelled⟩, rfl⟩ := (takes_readAssignment _).spelled valueRead
      obtain ⟨items, body, separated, othersSpelled, inTurn, rfl⟩ := ih laterRead
      have allInTurn := congrArg (assignment.setting :: ·) inTurn
      rcases begins with ⟨rfl, rfl⟩ | ⟨rfl, space, moreSpaces, rfl⟩
      · exact ⟨_, _, .first (gapSpaces.append spaces) rfl separated, .cons spelled othersSpelled, allInTurn,
          by simp⟩
      · exact ⟨_, _, .comma gapSpaces (moreSpaces.append spaces) rfl separated, .cons spelled othersSpelled,
          allInTurn, by simp⟩

end

/-! ## Documents -/

/-- The text holds the parts from the opening to the closing character, and white space around them. -/
def Encloses {α : Type} (opening close : Char) (holds : α → List Char → Prop) (parts : List α) (text : List Char) :
    Prop :=
  Padded (fun inside => ∃ body, Separated close holds true parts body ∧ inside = opening :: body) text

/-- The text is an object with these members. -/
structure WritesObject (members : List Member) (text : String) : Prop where
  fine : ∀ member ∈ members, member.WellFormed
  encloses : Encloses '\x7b' '\x7d' Member.WrittenAs members text.toList

/-- The text is a list of these items. -/
structure WritesList (items : List (List Char)) (text : String) : Prop where
  fine : ∀ item ∈ items, Shaped item
  encloses : Encloses '[' ']' Eq items text.toList

section
variable {α β : Type} {opening close otherOpening otherClose : Char} {holds : α → List Char → Prop}
  {otherHolds : β → List Char → Prop} {text : List Char}

theorem Encloses.same_opening {parts : List α} {others : List β} (encloses : Encloses opening close holds parts text)
    (otherEncloses : Encloses otherOpening otherClose otherHolds others text) (solid : isSpace opening = false)
    (otherSolid : isSpace otherOpening = false) : opening = otherOpening := by
  obtain ⟨before, _, after, spaces, ⟨body, _, rfl⟩, _, rfl⟩ := encloses
  obtain ⟨otherBefore, _, otherAfter, otherSpaces, ⟨otherBody, _, rfl⟩, _, same⟩ := otherEncloses
  exact (eq_of_spaces spaces otherSpaces solid otherSolid same).1

theorem Encloses.unique {good : α → Prop} (apart : Apart good holds) (closes : Closes close)
    (solid : isSpace opening = false) {parts others : List α} (fine : ∀ part ∈ parts, good part)
    (otherFine : ∀ part ∈ others, good part) (encloses : Encloses opening close holds parts text)
    (otherEncloses : Encloses opening close holds others text) : parts = others := by
  obtain ⟨before, _, after, spaces, ⟨body, separated, rfl⟩, _, rfl⟩ := encloses
  obtain ⟨otherBefore, _, otherAfter, otherSpaces, ⟨otherBody, otherSeparated, rfl⟩, _, same⟩ := otherEncloses
  obtain ⟨_, bodies⟩ := eq_of_spaces spaces otherSpaces solid solid same
  exact (apart.separated_unique closes fine otherFine separated otherSeparated bodies).1

end

section
variable {text : String} {settings : Settings} {members others : List Member} {items : List (List Char)}
  {assignments : List Assignment}

theorem WritesObject.unique (writes : WritesObject members text) (otherWrites : WritesObject others text) :
    members = others :=
  writes.encloses.unique apart_members (.inr rfl) rfl writes.fine otherWrites.fine otherWrites.encloses

theorem WritesList.unique {others : List (List Char)} (writes : WritesList items text)
    (otherWrites : WritesList others text) : items = others :=
  writes.encloses.unique apart_items (.inl rfl) rfl writes.fine otherWrites.fine otherWrites.encloses

theorem WritesObject.not_writesList (writes : WritesObject members text) : ¬ WritesList items text := by
  intro otherWrites
  have same := writes.encloses.same_opening otherWrites.encloses rfl rfl
  exact absurd same (by decide)

theorem parse_eq_ok_iff :
    parse text = .ok settings ↔
      ∃ assignments rest, readDocument text.toList = .ok (assignments, rest) ∧ Spaces rest ∧
        settings = ofAssignments assignments := by
  rw [parse, map_eq_ok_iff]
  constructor
  · rintro ⟨assignments, read, rfl⟩
    obtain ⟨rest, front, spaces⟩ := readAll_eq_ok_iff.1 read
    exact ⟨assignments, rest, front, spaces, rfl⟩
  · rintro ⟨assignments, rest, front, spaces, rfl⟩
    exact ⟨assignments, readAll_eq_ok_iff.2 ⟨rest, front, spaces⟩, rfl⟩

/-- An object whose members set each setting at most once is read as what they set. -/
theorem parse_of_writesObject (writes : WritesObject members text) (assigns : Assigns members assignments)
    (distinct : (assignments.map Assignment.setting).Nodup) : parse text = .ok (ofAssignments assignments) := by
  obtain ⟨before, _, after, spaces, ⟨body, separated, rfl⟩, afterSpaces, written⟩ := writes.encloses
  have short : body.length ≤ loopBound text.toList := by
    simp only [written, loopBound, List.length_append, List.length_cons]
    omega
  have read : readNamed (loopBound text.toList) [] true (body ++ after) = .ok (assignments, after) :=
    readNamed_separated separated assigns (fun member inside => (writes.fine member inside).value)
      ⟨by simp, distinct⟩ short after
  rw [written] at read
  refine parse_eq_ok_iff.2 ⟨assignments, after, ?_, afterSpaces, rfl⟩
  rw [readDocument, written, skipSpace_append spaces, List.cons_append, skipSpace_cons rfl]
  exact read

/-- A list of values for the first settings is read as what they give. -/
theorem parse_of_writesList (writes : WritesList items text) (assigns : AssignsInTurn items assignments) :
    parse text = .ok (ofAssignments assignments) := by
  obtain ⟨before, _, after, spaces, ⟨body, separated, rfl⟩, afterSpaces, written⟩ := writes.encloses
  have read := readListed_separated separated assigns.spelled assigns.inTurn after
  refine parse_eq_ok_iff.2 ⟨assignments, after, ?_, afterSpaces, rfl⟩
  rw [readDocument, written, skipSpace_append spaces, List.cons_append, skipSpace_cons rfl]
  exact read

/-- No document is read but such an object or such a list. -/
theorem exists_of_parse (parsed : parse text = .ok settings) :
    (∃ members assignments, WritesObject members text ∧ Assigns members assignments ∧
        (assignments.map Assignment.setting).Nodup ∧ settings = ofAssignments assignments) ∨
      ∃ items assignments, WritesList items text ∧ AssignsInTurn items assignments ∧
        settings = ofAssignments assignments := by
  obtain ⟨assignments, after, read, afterSpaces, rfl⟩ := parse_eq_ok_iff.1 parsed
  obtain ⟨before, spaces, parts⟩ := eq_append_skipSpace text.toList
  rw [readDocument] at read
  split at read
  · cases read
  rename_i c rest front
  rw [front] at parts
  split at read
  · rename_i bracket
    obtain ⟨items, body, separated, spelled, inTurn, rfl⟩ := of_readListed read
    have written : text.toList = before ++ ('[' :: body ++ after) := by rw [parts, bracket, List.cons_append]
    exact .inr ⟨items, assignments, ⟨shaped_of_spelledBy spelled, before, _, after, spaces, ⟨body, separated, rfl⟩,
      afterSpaces, written⟩, ⟨spelled, inTurn⟩, rfl⟩
  split at read
  · rename_i brace
    obtain ⟨members, body, fine, separated, assigns, ⟨_, distinct⟩, rfl⟩ := of_readNamed read
    have written : text.toList = before ++ ('\x7b' :: body ++ after) := by rw [parts, brace, List.cons_append]
    exact .inl ⟨members, assignments, ⟨fine, before, _, after, spaces, ⟨body, separated, rfl⟩, afterSpaces, written⟩,
      assigns, distinct, rfl⟩
  · exact absurd read typeFault_ne_ok

theorem parse_object_iff (writes : WritesObject members text) :
    parse text = .ok settings ↔
      ∃ assignments, Assigns members assignments ∧ (assignments.map Assignment.setting).Nodup ∧
        settings = ofAssignments assignments := by
  constructor
  · intro parsed
    obtain ⟨others, assignments, otherWrites, found⟩ | ⟨items, assignments, otherWrites, _⟩ := exists_of_parse parsed
    · obtain rfl := writes.unique otherWrites
      exact ⟨assignments, found⟩
    · exact absurd otherWrites writes.not_writesList
  · rintro ⟨assignments, assigns, distinct, rfl⟩
    exact parse_of_writesObject writes assigns distinct

theorem parse_list_iff (writes : WritesList items text) :
    parse text = .ok settings ↔
      ∃ assignments, AssignsInTurn items assignments ∧ settings = ofAssignments assignments := by
  constructor
  · intro parsed
    obtain ⟨others, assignments, otherWrites, _⟩ | ⟨others, assignments, otherWrites, found⟩ := exists_of_parse parsed
    · exact absurd writes otherWrites.not_writesList
    · obtain rfl := writes.unique otherWrites
      exact ⟨assignments, found⟩
  · rintro ⟨assignments, assigns, rfl⟩
    exact parse_of_writesList writes assigns

end

end LogSieve.Settings
