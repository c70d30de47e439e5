import LogSieve.Proofs.Sifting
import Mathlib.Data.Set.Function
/-!
# What a sift preserves

The single values of a record that are not empty are its leaves, each at the end of a path
of names. Where no two fields of one record come to the same name, pruning takes every leaf
along to the same path without dots (`bijOn_prune`), and sifting puts each at the
`destination` of its path: none is lost, doubled or altered (`bijOn_sift`).
-/
namespace LogSieve.Value

/-- The value that a path of names leads to through records. -/
def reach? : Value → List String → Option Value
  | value, [] => some value
  | .record fields, name :: rest => (Fields.get? fields name).bind (fun inner => inner.reach? rest)
  -- No path leads into a list.
  | .null, _ :: _ | .bool _, _ :: _ | .number _, _ :: _ | .string _, _ :: _ | .array _, _ :: _ => none

/-- The value is no record, and not empty. -/
def IsLeaf (value : Value) : Prop := value.isRecord = false ∧ value.isEmpty = false

/-- The leaves inside the value, with their paths. -/
def leaves (value : Value) : Set (List String × Value) :=
  {leaf | value.reach? leaf.1 = some leaf.2 ∧ leaf.2.IsLeaf}

/-- No two fields of one record come to the same name, at any depth. -/
inductive NamesApart (replacement : Option String) : Value → Prop
  | single (value : Value) (single : value.isRecord = false) : NamesApart replacement value
  | record (fields : List (String × Value))
      (distinct : (fields.map (fun field => Key.undotted replacement field.1)).Nodup)
      (inside : ∀ field ∈ fields, NamesApart replacement field.2) : NamesApart replacement (.record fields)

/-! ## Leaves of a record -/

theorem reach?_cons_eq_some_iff {value leaf : Value} {name : String} {rest : List String} :
    value.reach? (name :: rest) = some leaf ↔
      ∃ fields inner, value = .record fields ∧ Fields.get? fields name = some inner ∧
        inner.reach? rest = some leaf := by
  cases value with
  | record fields => simp [reach?, Option.bind_eq_some_iff]
  | null | bool _ | number _ | string _ | array _ => simp [reach?]

theorem mem_leaves_nil {value leaf : Value} : ([], leaf) ∈ value.leaves ↔ value = leaf ∧ leaf.IsLeaf := by
  simp [leaves, reach?]

theorem mem_leaves_cons {value leaf : Value} {name : String} {rest : List String} :
    (name :: rest, leaf) ∈ value.leaves ↔
      ∃ fields inner, value = .record fields ∧ Fields.get? fields name = some inner ∧
        (rest, leaf) ∈ inner.leaves := by
  simp only [leaves, Set.mem_ofPred_eq, reach?_cons_eq_some_iff]
  constructor
  · rintro ⟨⟨fields, inner, rfl, found, reached⟩, isLeaf⟩
    exact ⟨fields, inner, rfl, found, reached, isLeaf⟩
  · rintro ⟨fields, inner, rfl, found, reached, isLeaf⟩
    exact ⟨⟨fields, inner, rfl, found, reached⟩, isLeaf⟩

theorem mem_leaves_record {fields : Record} {path : List String} {leaf : Value} :
    (path, leaf) ∈ (Value.record fields).leaves ↔
      ∃ name rest inner, path = name :: rest ∧ fields.get? name = some inner ∧ (rest, leaf) ∈ inner.leaves := by
  cases path with
  | nil =>
    rw [mem_leaves_nil]
    constructor
    · rintro ⟨rfl, single, _⟩
      cases single
    · rintro ⟨_, _, _, impossible, _⟩
      cases impossible
  | cons name rest => simp [mem_leaves_cons]

theorem isEmpty_of_mem_leaves {value leaf : Value} {path : List String} (member : (path, leaf) ∈ value.leaves) :
    value.isEmpty = false := by
  induction path generalizing value with
  | nil =>
    obtain ⟨rfl, _, filled⟩ := mem_leaves_nil.1 member
    exact filled
  | cons name rest ih =>
    obtain ⟨fields, inner, rfl, found, inside⟩ := mem_leaves_cons.1 member
    by_contra empty
    rw [Bool.not_eq_false, isEmpty, allEmpty_iff] at empty
    have := empty _ (Fields.mem_of_get? found)
    rw [ih inside] at this
    cases this

/-! ## Pruning -/

section
variable {replacement : Option String}

theorem namesApart_of_inOrder {value : Value} (inOrder : value.InOrder) : value.NamesApart none := by
  induction value using record_induction with
  | single value single => exact .single value single
  | record fields ih =>
    refine .record fields ?_ ?_
    · exact Fields.sorted_nodup inOrder.1
    · intro field member
      exact ih field member (fieldsInOrder_iff.1 inOrder.2 field member)

/-- Under the new name of a field stands its pruned value, if the field is not empty. -/
theorem get?_survivors {fields : Record}
    (distinct : (fields.map (fun field => Key.undotted replacement field.1)).Nodup) {name : String} {pruned : Value} :
    (Fields.ofList (survivors replacement fields)).get? name = some pruned ↔
      ∃ source ∈ fields, (source.2.prune replacement).isEmpty = false ∧
        (Key.undotted replacement source.1, source.2.prune replacement) = (name, pruned) := by
  rw [← mem_survivors]
  constructor
  · intro found
    exact Fields.mem_of_mem_ofList (Fields.mem_of_get? found)
  · intro member
    refine Fields.get?_ofList_of_mem ?_ member
    rw [survivors_eq, List.map_map]
    exact distinct.sublist (List.filter_sublist.map _)

theorem mapsTo_prune {value : Value} (apart : value.NamesApart replacement) {path : List String} {leaf : Value}
    (member : (path, leaf) ∈ value.leaves) :
    (path.map (Key.undotted replacement), leaf) ∈ (value.prune replacement).leaves := by
  induction path generalizing value with
  | nil =>
    obtain ⟨rfl, isLeaf⟩ := mem_leaves_nil.1 member
    rw [prune_of_single replacement isLeaf.1]
    exact member
  | cons name rest ih =>
    obtain ⟨fields, inner, rfl, found, inside⟩ := mem_leaves_cons.1 member
    cases apart with
    | single _ single => cases single
    | record _ distinct apart =>
      have source := Fields.mem_of_get? found
      -- What has a leaf inside is not empty, so pruning does not take it out.
      have survives : (inner.prune replacement).isEmpty = false := by
        rw [isEmpty_prune, isEmpty_of_mem_leaves inside]
      refine mem_leaves_cons.2 ⟨_, inner.prune replacement, rfl, ?_, ih (apart _ source) inside⟩
      exact (get?_survivors distinct).2 ⟨(name, inner), source, survives, rfl⟩

theorem injOn_prune {value : Value} (apart : value.NamesApart replacement) {path other : List String}
    {leaf otherLeaf : Value} (member : (path, leaf) ∈ value.leaves) (otherMember : (other, otherLeaf) ∈ value.leaves)
    (same : path.map (Key.undotted replacement) = other.map (Key.undotted replacement)) : path = other := by
  induction path generalizing value other with
  | nil => exact (List.map_eq_nil_iff.1 same.symm).symm
  | cons name rest ih =>
    cases other with
    | nil => cases same
    | cons otherName otherRest =>
      obtain ⟨fields, inner, rfl, found, inside⟩ := mem_leaves_cons.1 member
      obtain ⟨_, otherInner, ⟨⟩, otherFound, otherInside⟩ := mem_leaves_cons.1 otherMember
      rw [List.map_cons, List.map_cons, List.cons.injEq] at same
      cases apart with
      | single _ single => cases single
      | record _ distinct apart =>
        have source := Fields.mem_of_get? found
        have one := List.inj_on_of_nodup_map distinct source (Fields.mem_of_get? otherFound) same.1
        cases one
        rw [ih (apart _ source) inside otherInside same.2]

theorem surjOn_prune {value : Value} (apart : value.NamesApart replacement) {path : List String} {leaf : Value}
    (member : (path, leaf) ∈ (value.prune replacement).leaves) :
    ∃ source, (source, leaf) ∈ value.leaves ∧ source.map (Key.undotted replacement) = path := by
  induction apart generalizing path with
  | single value single =>
    rw [prune_of_single replacement single] at member
    cases path with
    | nil => exact ⟨[], member, rfl⟩
    | cons name rest =>
      obtain ⟨_, _, rfl, _, _⟩ := mem_leaves_cons.1 member
      cases single
  | record fields distinct apart ih =>
    obtain ⟨name, rest, pruned, rfl, found, inside⟩ := mem_leaves_record.1 member
    obtain ⟨field, source, _, same⟩ := (get?_survivors distinct).1 found
    cases same
    obtain ⟨path, reached, rfl⟩ := ih field source inside
    have names : (fields.map (·.1)).Nodup := by
      refine List.Nodup.of_map (Key.undotted replacement) ?_
      rw [List.map_map]
      exact distinct
    exact ⟨field.1 :: path, mem_leaves_cons.2 ⟨fields, field.2, rfl, Fields.get?_of_mem names source, reached⟩, rfl⟩

/-- Pruning takes every leaf along. -/
theorem bijOn_prune {value : Value} (apart : value.NamesApart replacement) :
    Set.BijOn (fun leaf => (leaf.1.map (Key.undotted replacement), leaf.2))
      value.leaves (value.prune replacement).leaves := by
  refine ⟨?_, ?_, ?_⟩
  · intro leaf member
    exact mapsTo_prune apart member
  · intro leaf member other otherMember same
    obtain ⟨paths, leaves⟩ := Prod.mk.inj same
    exact Prod.ext (injOn_prune apart member otherMember paths) leaves
  · intro leaf member
    obtain ⟨source, reached, moved⟩ := surjOn_prune apart member
    exact ⟨(source, leaf.2), reached, Prod.ext moved rfl⟩

end

end LogSieve.Value

namespace LogSieve.Policy
open Value
variable {policy : Policy}

/-- The names under which the value of a field of the record is stored. -/
def entry (policy : Policy) (name : String) : List String :=
  if policy.gathers = true ∧ name ∉ policy.keep then [policy.gatheredName, policy.rename name]
  else [policy.rename name]

/-- Where the leaf at a path of the record goes. -/
def destination (policy : Policy) : List String → List String
  | [] => []
  | name :: rest => policy.entry name ++ rest.map (Key.undotted policy.nestedReplacement)

/-! ## Leaves of a sifted record -/

/-- Under the new name of a field at a place stands its pruned value. -/
theorem get?_fieldsAt {record : Record} (distinct : (record.map (fun field => policy.rename field.1)).Nodup)
    {place : Place} {name : String} {pruned : Value} :
    (policy.fieldsAt place record).get? name = some pruned ↔
      ∃ source ∈ record, ¬ policy.Reserves source.1 ∧
        policy.place source.1 (policy.pruneValue source.2) = place ∧ policy.stored source = (name, pruned) := by
  constructor
  · intro found
    exact source_of_mem_fieldsAt (Fields.mem_of_get? found)
  · rintro ⟨source, member, free, placed, stored⟩
    have inside : source ∈ (policy.placed record).filter
        (fun field => policy.place field.1 (policy.pruneValue field.2) = place) :=
      List.mem_filter.2 ⟨mem_placed.2 ⟨member, free⟩, decide_eq_true placed⟩
    refine Fields.get?_ofList_of_mem ?_ (stored ▸ List.mem_map_of_mem inside)
    rw [List.map_map]
    exact distinct.sublist ((List.filter_sublist.trans List.filter_sublist).map _)

/-- A leaf of a sifted record is one of the fields at the top, or one of those gathered. -/
theorem mem_leaves_siftedRecord (coherent : policy.Coherent) {record : Record}
    (absent : policy.gatheredValue record = none) {path : List String} {leaf : Value} :
    (path, leaf) ∈ (Value.record (policy.siftedRecord record)).leaves ↔
      (path, leaf) ∈ (Value.record (policy.fieldsAt .top record)).leaves ∨
        policy.gathers = true ∧ ∃ rest, path = policy.gatheredName :: rest ∧
          (rest, leaf) ∈ (Value.record (policy.fieldsAt .gathered record)).leaves := by
  by_cases gathers : policy.gathers = true
  · have gathered := gatheredValue_siftedRecord coherent record
    rw [gatheredValue, if_pos gathers, gatheredFrom_of_absent absent] at gathered
    rw [mem_leaves_record, mem_leaves_record, and_iff_right gathers]
    constructor
    · rintro ⟨name, rest, inner, rfl, found, inside⟩
      by_cases reserved : name = policy.gatheredName
      · right
        rw [reserved, gathered] at found
        split at found
        · cases found
        · cases found
          exact ⟨rest, reserved ▸ rfl, inside⟩
      · left
        rw [get?_siftedRecord reserved] at found
        exact ⟨name, rest, inner, rfl, found, inside⟩
    · rintro (⟨name, rest, inner, rfl, found, inside⟩ | ⟨rest, rfl, inside⟩)
      · -- No field at the top has the reserved name.
        have other : name ≠ policy.gatheredName := by
          rintro rfl
          rw [get?_top_gatheredName coherent gathers] at found
          cases found
        exact ⟨name, rest, inner, rfl, (get?_siftedRecord other record).trans found, inside⟩
      · have new : policy.fieldsAt .gathered record ≠ [] := by
          intro empty
          obtain ⟨_, _, _, _, found, _⟩ := mem_leaves_record.1 inside
          rw [empty, Fields.get?_nil] at found
          cases found
        exact ⟨policy.gatheredName, rest, _, rfl, gathered.trans (if_neg new), inside⟩
  · rw [siftedRecord_of_not_gathers (by simpa using gathers)]
    simp [gathers]

theorem mem_leaves_fieldsAt {record : Record} (distinct : (record.map (fun field => policy.rename field.1)).Nodup)
    {place : Place} {path : List String} {leaf : Value} :
    (path, leaf) ∈ (Value.record (policy.fieldsAt place record)).leaves ↔
      ∃ source ∈ record, ¬ policy.Reserves source.1 ∧
        policy.place source.1 (policy.pruneValue source.2) = place ∧
        ∃ rest, path = policy.rename source.1 :: rest ∧ (rest, leaf) ∈ (policy.pruneValue source.2).leaves := by
  rw [mem_leaves_record]
  constructor
  · rintro ⟨name, rest, pruned, rfl, found, inside⟩
    obtain ⟨source, member, free, placed, stored⟩ := (get?_fieldsAt distinct).1 found
    cases stored
    exact ⟨source, member, free, placed, rest, rfl, inside⟩
  · rintro ⟨source, member, free, placed, rest, rfl, inside⟩
    have found := (get?_fieldsAt distinct).2 ⟨source, member, free, placed, rfl⟩
    exact ⟨policy.rename source.1, rest, policy.pruneValue source.2, rfl, found, inside⟩

theorem place_of_filled (policy : Policy) (name : String) {pruned : Value} (filled : pruned.isEmpty = false) :
    policy.place name pruned = if policy.gathers = true ∧ name ∉ policy.keep then .gathered else .top := by
  have stays : ¬ policy.Drops name pruned := not_drops_of_filled name filled
  split
  · rename_i moves
    exact place_eq_gathered_iff.2 ⟨moves.1, moves.2, stays⟩
  · rename_i stands
    rw [place_eq_top_iff]
    by_cases kept : name ∈ policy.keep
    · exact .inl kept
    · right
      refine ⟨?_, stays⟩
      by_contra gathers
      exact stands ⟨by simpa using gathers, kept⟩

/-- Every leaf of a sifted record is one of a pruned field, and stands where the field is stored. -/
theorem mem_leaves_siftedRecord_iff (coherent : policy.Coherent) {record : Record}
    (absent : policy.gatheredValue record = none)
    (distinct : (record.map (fun field => policy.rename field.1)).Nodup) {path : List String} {leaf : Value} :
    (path, leaf) ∈ (Value.record (policy.siftedRecord record)).leaves ↔
      ∃ source ∈ record, ∃ rest, path = policy.entry source.1 ++ rest ∧
        (rest, leaf) ∈ (policy.pruneValue source.2).leaves := by
  have unreserved : ∀ source ∈ record, ¬ policy.Reserves source.1 := by
    rintro source member ⟨gathers, reserved⟩
    rw [gatheredValue, if_pos gathers, Fields.get?_eq_none_iff] at absent
    exact absent source member reserved
  rw [mem_leaves_siftedRecord coherent absent]
  constructor
  · rintro (top | ⟨gathers, path, rfl, gathered⟩)
    · obtain ⟨source, member, _, placed, rest, rfl, inside⟩ := (mem_leaves_fieldsAt distinct).1 top
      refine ⟨source, member, rest, ?_, inside⟩
      rw [policy.place_of_filled source.1 (isEmpty_of_mem_leaves inside)] at placed
      rw [entry, if_neg (fun moves => by rw [if_pos moves] at placed; cases placed)]
      rfl
    · obtain ⟨source, member, _, placed, rest, rfl, inside⟩ := (mem_leaves_fieldsAt distinct).1 gathered
      refine ⟨source, member, rest, ?_, inside⟩
      rw [entry, if_pos ⟨gathers, (place_eq_gathered_iff.1 placed).2.1⟩]
      rfl
  · rintro ⟨source, member, rest, rfl, inside⟩
    have placed := policy.place_of_filled source.1 (isEmpty_of_mem_leaves inside)
    by_cases moves : policy.gathers = true ∧ source.1 ∉ policy.keep
    · right
      rw [if_pos moves] at placed
      rw [entry, if_pos moves]
      exact ⟨moves.1, _, rfl, (mem_leaves_fieldsAt distinct).2
        ⟨source, member, unreserved source member, placed, rest, rfl, inside⟩⟩
    · left
      rw [if_neg moves] at placed
      rw [entry, if_neg moves]
      exact (mem_leaves_fieldsAt distinct).2 ⟨source, member, unreserved source member, placed, rest, rfl, inside⟩

/-- Fields that are stored under one name are one. -/
theorem rename_eq_of_entry (coherent : policy.Coherent) {name other : String} {rest otherRest : List String}
    (same : policy.entry name ++ rest = policy.entry other ++ otherRest) :
    policy.rename name = policy.rename other ∧ rest = otherRest := by
  rw [entry, entry] at same
  by_cases moves : policy.gathers = true ∧ name ∉ policy.keep
  · by_cases otherMoves : policy.gathers = true ∧ other ∉ policy.keep
    · simpa [moves, otherMoves] using same
    · have kept : other ∈ policy.keep := by
        by_contra free
        exact otherMoves ⟨moves.1, free⟩
      rw [if_pos moves, if_neg otherMoves] at same
      exact absurd (List.cons.inj same).1.symm (coherent.rename_ne_gatheredName moves.1 kept)
  · by_cases otherMoves : policy.gathers = true ∧ other ∉ policy.keep
    · have kept : name ∈ policy.keep := by
        by_contra free
        exact moves ⟨otherMoves.1, free⟩
      rw [if_neg moves, if_pos otherMoves] at same
      exact absurd (List.cons.inj same).1 (coherent.rename_ne_gatheredName otherMoves.1 kept)
    · simpa [moves, otherMoves] using same

theorem namesApart_nested {record : Record} (inOrder : (Value.record record).InOrder)
    (apart : policy.renamesNested = true → ∀ field ∈ record, field.2.NamesApart policy.dotReplacement) :
    ∀ field ∈ record, field.2.NamesApart policy.nestedReplacement := by
  intro field member
  rw [nestedReplacement]
  split
  · rename_i renames
    exact apart renames field member
  · exact namesApart_of_inOrder (fieldsInOrder_iff.1 inOrder.2 field member)

/-- Sifting takes every leaf of a record to its destination, where nothing stands under the reserved name and
    no two names that are renamed come to the same one. -/
theorem bijOn_sift {settings : Settings} {policy : Policy} (accepted : settings.toPolicy = .ok policy)
    {record : Record} (inOrder : (Value.record record).InOrder)
    (absent : policy.gathers = true → record.get? policy.gatheredName = none)
    (distinct : (record.map (fun field => policy.rename field.1)).Nodup)
    (apart : policy.renamesNested = true → ∀ field ∈ record, field.2.NamesApart policy.dotReplacement) :
    Set.BijOn (fun leaf => (policy.destination leaf.1, leaf.2))
      (Value.record record).leaves (Value.record (policy.sift record).record).leaves := by
  have coherent := Settings.coherent_of_toPolicy accepted
  have nested := namesApart_nested inOrder apart
  have unreserved : policy.gatheredValue record = none := by
    rw [gatheredValue]
    split
    · rename_i gathers
      exact absent gathers
    · rfl
  refine ⟨?_, ?_, ?_⟩
  -- None is lost.
  · rintro ⟨path, leaf⟩ member
    obtain ⟨name, rest, inner, rfl, found, inside⟩ := mem_leaves_record.1 member
    have source := Fields.mem_of_get? found
    refine (mem_leaves_siftedRecord_iff coherent unreserved distinct).2 ⟨_, source, _, rfl, ?_⟩
    exact (bijOn_prune (nested _ source)).mapsTo inside
  -- No two meet.
  · rintro ⟨path, leaf⟩ member ⟨other, otherLeaf⟩ otherMember same
    obtain ⟨name, rest, inner, rfl, found, inside⟩ := mem_leaves_record.1 member
    obtain ⟨otherName, otherRest, otherInner, rfl, otherFound, otherInside⟩ := mem_leaves_record.1 otherMember
    obtain ⟨paths, rfl⟩ := Prod.mk.inj same
    obtain ⟨renamed, rests⟩ := rename_eq_of_entry coherent paths
    have source := Fields.mem_of_get? found
    have one := List.inj_on_of_nodup_map distinct source (Fields.mem_of_get? otherFound) renamed
    cases one
    have leaves := (bijOn_prune (nested _ source)).injOn inside otherInside (Prod.ext rests rfl)
    rw [(Prod.mk.inj leaves).1]
  -- None is new.
  · rintro ⟨path, leaf⟩ member
    obtain ⟨field, source, rest, rfl, inside⟩ :=
      (mem_leaves_siftedRecord_iff coherent unreserved distinct).1 member
    obtain ⟨⟨origin, _⟩, reached, moved⟩ := (bijOn_prune (nested field source)).surjOn inside
    obtain ⟨rfl, rfl⟩ := Prod.mk.inj moved
    have found := Fields.get?_of_mem (Fields.sorted_nodup inOrder.1) source
    exact ⟨(field.1 :: origin, _), mem_leaves_record.2 ⟨field.1, origin, field.2, rfl, found, reached⟩, rfl⟩

/-- Dots are replaced at every depth, and fields are gathered but for one. -/
def nestedSettings : Settings :=
  { Settings.initial with gathers := true, renamesNested := true, keep := "time", dotReplacement := "_" }

/-- The policy of these settings. -/
def nestedPolicy : Policy :=
  { initial with gathers := true, renamesNested := true, keep := ["time"], dotReplacement := some "_" }

/-- An empty field beside a leaf, inside a record whose names are renamed. -/
theorem bijOn_sift_nested :
    nestedSettings.toPolicy = .ok nestedPolicy ∧
      let record : Record := [("a.b", .record [("c.d", .null), ("e", .string "")]), ("time", .bool true)]
      (Value.record record).InOrder ∧ record.get? nestedPolicy.gatheredName = none ∧
        (record.map (fun field => nestedPolicy.rename field.1)).Nodup ∧
        (∀ field ∈ record, field.2.NamesApart nestedPolicy.dotReplacement) ∧
        nestedPolicy.destination ["a.b", "c.d"] = ["undefined", "a_b", "c_d"] ∧
        Set.BijOn (fun leaf => (nestedPolicy.destination leaf.1, leaf.2))
          (Value.record record).leaves (Value.record (nestedPolicy.sift record).record).leaves := by
  have accepted : nestedSettings.toPolicy = .ok nestedPolicy := rfl
  refine ⟨accepted, ?_⟩
  intro record
  have inOrder : (Value.record record).InOrder :=
    ⟨by unfold Fields.Sorted; decide, ⟨by unfold Fields.Sorted; decide, trivial, trivial, trivial⟩, trivial, trivial⟩
  have distinct : (record.map (fun field => nestedPolicy.rename field.1)).Nodup := by decide
  have apart : ∀ field ∈ record, field.2.NamesApart nestedPolicy.dotReplacement := by
    intro field member
    rcases List.mem_cons.1 member with rfl | last
    · refine .record _ (by decide) ?_
      intro inner inside
      refine .single inner.2 ?_
      revert inner
      decide
    · rw [List.mem_singleton.1 last]
      exact .single _ rfl
  refine ⟨inOrder, rfl, distinct, apart, rfl, ?_⟩
  exact bijOn_sift accepted inOrder (fun _ => rfl) distinct (fun _ => apart)

end LogSieve.Policy
