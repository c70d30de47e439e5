import LogSieve.Proofs.Sifting
/-!
# Sifting again

A record is settled if sifting finds nothing to do in it (`siftedRecord_of_settled`,
`siftAlters_of_settled`). What a sift leaves is settled unless an earlier value that is no
record was stored beside new fields under a reserved name with a dot: the next sift takes
that dot out (`sift_sift_unchanged_iff`).
-/
namespace LogSieve.Policy
variable {policy : Policy}

/-! ## Fields and gathered values at rest -/

/-- The field is stored as it is. -/
structure Rests (policy : Policy) (field : String × Value) : Prop where
  name : policy.rename field.1 = field.1
  value : field.2.Pruned policy.nestedReplacement

theorem Rests.pruneValue_eq {field : String × Value} (rests : policy.Rests field) :
    policy.pruneValue field.2 = field.2 :=
  Value.prune_of_pruned rests.value

theorem Rests.stored_eq {field : String × Value} (rests : policy.Rests field) : policy.stored field = field := by
  rw [stored, rests.name, rests.pruneValue_eq]

theorem Rests.alters_eq_false {field : String × Value} (rests : policy.Rests field) :
    policy.alters field = false := by
  rw [alters, rests.name, Value.prunes_of_pruned rests.value]
  simp

theorem rests_stored (coherent : policy.Coherent) (field : String × Value) : policy.Rests (policy.stored field) where
  name := coherent.rename_rename field.1
  value := Value.pruned_prune coherent.plainNested field.2

/-- A field that stays in spite of its emptiness stays under its new name too. -/
theorem not_drops_stored (coherent : policy.Coherent) {name : String} {pruned : Value}
    (stays : ¬ policy.Drops name pruned) : ¬ policy.Drops (policy.rename name) pruned := by
  rintro ⟨empty, unlisted⟩
  apply stays
  exact ⟨empty, fun listed => unlisted (coherent.keepEmptyClosed name listed)⟩

/-- Storing fields at rest that are in order gives them back. -/
theorem ofList_map_stored {fields : Record} (sorted : Fields.Sorted fields) {counts : String × Value → Bool}
    (all : ∀ field ∈ fields, counts field = true) (rest : ∀ field ∈ fields, policy.Rests field) :
    Fields.ofList ((fields.filter counts).map policy.stored) = fields := by
  have same : ∀ field ∈ fields, policy.stored field = id field := fun field member => (rest field member).stored_eq
  rw [List.filter_eq_self.2 all, List.map_congr_left same, List.map_id, Fields.ofList_of_sorted sorted]

/-- The value can stand under the reserved name for good. -/
inductive Holds (policy : Policy) : Value → Prop
  | single (value : Value) (single : value.isRecord = false) (filled : value.isEmpty = false) : Holds policy value
  | record (fields : Record) (sorted : Fields.Sorted fields) (nonempty : fields ≠ [])
      (rest : ∀ field ∈ fields, policy.Rests field)
      (stay : ∀ field ∈ fields, ¬ policy.Drops field.1 field.2) : Holds policy (.record fields)

theorem resift_of_single {value : Value} (single : value.isRecord = false) :
    policy.resift value = if value.isEmpty = true then none else some value := by
  cases value with
  | record fields => cases single
  | null | bool _ | number _ | string _ | array _ => rfl

theorem resiftAlters_of_single {value : Value} (single : value.isRecord = false) :
    policy.resiftAlters value = value.isEmpty := by
  cases value with
  | record fields => cases single
  | null | bool _ | number _ | string _ | array _ => rfl

theorem gather_of_single {value : Value} (single : value.isRecord = false) {fresh : Record} (new : fresh ≠ []) :
    policy.gather (some value) fresh = some (.record (Fields.insert fresh policy.gatheredName value)) := by
  cases value with
  | record fields => cases single
  | null | bool _ | number _ | string _ | array _ => exact if_neg new

theorem gather_nil (earlier : Option Value) : policy.gather earlier [] = earlier := by
  cases earlier <;> rfl

theorem staying_of_rests {fields : Record} (sorted : Fields.Sorted fields)
    (rest : ∀ field ∈ fields, policy.Rests field) (stay : ∀ field ∈ fields, ¬ policy.Drops field.1 field.2) :
    policy.staying fields = fields := by
  refine ofList_map_stored sorted ?_ rest
  intro field member
  rw [decide_eq_true_eq, (rest field member).pruneValue_eq]
  exact stay field member

theorem resift_of_holds {value : Value} (holds : policy.Holds value) : policy.resift value = some value := by
  cases holds with
  | single _ single filled => rw [resift_of_single single, filled, if_neg Bool.false_ne_true]
  | record fields sorted nonempty rest stay =>
    rw [resift, staying_of_rests sorted rest stay]
    exact if_neg nonempty

theorem resiftAlters_of_holds {value : Value} (holds : policy.Holds value) : policy.resiftAlters value = false := by
  cases holds with
  | single _ single filled => rw [resiftAlters_of_single single, filled]
  | record fields sorted nonempty rest stay =>
    rw [resiftAlters, staying_of_rests sorted rest stay, Bool.or_eq_false_iff, List.any_eq_false,
      decide_eq_false_iff_not]
    refine ⟨?_, nonempty⟩
    intro field member
    rw [(rest field member).alters_eq_false, (rest field member).pruneValue_eq, Bool.false_or,
      decide_eq_true_eq]
    exact stay field member

theorem source_of_mem_staying {fields : Record} {field : String × Value} (member : field ∈ policy.staying fields) :
    ∃ source ∈ fields, ¬ policy.Drops source.1 (policy.pruneValue source.2) ∧ policy.stored source = field := by
  obtain ⟨source, inside, stored⟩ := List.mem_map.1 (Fields.mem_of_mem_ofList member)
  rw [List.mem_filter, decide_eq_true_eq] at inside
  exact ⟨source, inside.1, inside.2, stored⟩

/-- What stays of the earlier fields is at rest, and stays. -/
theorem of_mem_staying (coherent : policy.Coherent) {fields : Record} {field : String × Value}
    (member : field ∈ policy.staying fields) : policy.Rests field ∧ ¬ policy.Drops field.1 field.2 := by
  obtain ⟨source, _, stays, rfl⟩ := source_of_mem_staying member
  exact ⟨rests_stored coherent source, not_drops_stored coherent stays⟩

/-- What stays of an earlier value: the value itself if it is no record, else the fields of it that stay. -/
theorem resift_cases {value stays : Value} (kept : policy.resift value = some stays) :
    (value.isRecord = false ∧ value.isEmpty = false ∧ stays = value) ∨
      ∃ fields, value = .record fields ∧ policy.staying fields ≠ [] ∧ stays = .record (policy.staying fields) := by
  cases kind : value.isRecord with
  | false =>
    rw [resift_of_single kind] at kept
    split at kept
    · cases kept
    · rename_i filled
      cases kept
      exact .inl ⟨rfl, by simpa using filled, rfl⟩
  | true =>
    obtain ⟨fields, rfl⟩ := Value.exists_record kind
    rw [resift] at kept
    split at kept
    · cases kept
    · rename_i nonempty
      cases kept
      exact .inr ⟨fields, rfl, nonempty, rfl⟩

theorem holds_of_resift (coherent : policy.Coherent) {value stays : Value}
    (kept : policy.resift value = some stays) : policy.Holds stays := by
  rcases resift_cases kept with ⟨single, filled, rfl⟩ | ⟨fields, rfl, nonempty, rfl⟩
  · exact .single stays single filled
  · exact .record _ (Fields.sorted_ofList _) nonempty (fun _ member => (of_mem_staying coherent member).1)
      (fun _ member => (of_mem_staying coherent member).2)

/-! ## Settled records -/

/-- Every field that is not reserved is at rest and at its place. -/
def SettledTop (policy : Policy) (record : Record) : Prop :=
  ∀ field ∈ record, ¬ policy.Reserves field.1 → policy.Rests field ∧ policy.place field.1 field.2 = .top

/-- Sifting finds nothing to do in the record. -/
structure Settled (policy : Policy) (record : Record) : Prop where
  sorted : Fields.Sorted record
  top : policy.SettledTop record
  gathered : ∀ value, policy.gatheredValue record = some value → policy.Holds value

theorem SettledTop.gathered_eq_nil {record : Record} (top : policy.SettledTop record) :
    policy.fieldsAt .gathered record = [] := by
  rw [fieldsAt_eq_nil_iff]
  intro field member free gathered
  obtain ⟨rests, placed⟩ := top field member free
  rw [rests.pruneValue_eq, placed] at gathered
  cases gathered

theorem SettledTop.top_eq_placed {record : Record} (top : policy.SettledTop record) (sorted : Fields.Sorted record) :
    policy.fieldsAt .top record = policy.placed record := by
  refine ofList_map_stored (Fields.sorted_filter sorted _) ?_ ?_
  · intro field member
    obtain ⟨inside, free⟩ := mem_placed.1 member
    obtain ⟨rests, placed⟩ := top field inside free
    rw [decide_eq_true_eq, rests.pruneValue_eq, placed]
  · intro field member
    obtain ⟨inside, free⟩ := mem_placed.1 member
    exact (top field inside free).1

theorem SettledTop.movesAny_eq_false {record : Record} (top : policy.SettledTop record) :
    policy.movesAny record = false := by
  rw [movesAny, List.any_eq_false]
  intro field member
  obtain ⟨inside, free⟩ := mem_placed.1 member
  obtain ⟨rests, placed⟩ := top field inside free
  simp [rests.alters_eq_false, rests.pruneValue_eq, placed]

theorem siftedRecord_of_settled {record : Record} (settled : policy.Settled record) :
    policy.siftedRecord record = record := by
  rw [siftedRecord_eq, gatheredFrom, settled.top.gathered_eq_nil, gather_nil, settled.top.top_eq_placed settled.sorted]
  cases found : policy.gatheredValue record with
  | none => exact placed_of_gatheredValue_eq_none found
  | some value =>
    simp only [Option.bind_some, resift_of_holds (settled.gathered value found)]
    exact insert_placed settled.sorted found

theorem siftAlters_of_settled {record : Record} (settled : policy.Settled record) :
    policy.siftAlters record = false := by
  rw [siftAlters, settled.top.movesAny_eq_false, Bool.false_or]
  cases found : policy.gatheredValue record with
  | none => rfl
  | some value => exact resiftAlters_of_holds (settled.gathered value found)

/-! ## What a sift leaves -/

theorem settledTop_siftedRecord (coherent : policy.Coherent) (record : Record) :
    policy.SettledTop (policy.siftedRecord record) := by
  intro field member free
  have inside : field ∈ policy.fieldsAt .top record := by
    rw [← placed_siftedRecord coherent]
    exact mem_placed.2 ⟨member, free⟩
  obtain ⟨source, _, _, top, rfl⟩ := source_of_mem_fieldsAt inside
  refine ⟨rests_stored coherent source, ?_⟩
  rw [place_eq_top_iff] at top ⊢
  rcases top with kept | ⟨notGathers, stays⟩
  · exact .inl (coherent.keepClosed source.1 kept)
  · exact .inr ⟨notGathers, not_drops_stored coherent stays⟩

/-- A new field among the gathered ones is at rest, and stays. -/
theorem of_mem_fieldsAt_gathered (coherent : policy.Coherent) {record : Record} {field : String × Value}
    (member : field ∈ policy.fieldsAt .gathered record) : policy.Rests field ∧ ¬ policy.Drops field.1 field.2 := by
  obtain ⟨source, _, _, gathered, rfl⟩ := source_of_mem_fieldsAt member
  exact ⟨rests_stored coherent source, not_drops_stored coherent (place_eq_gathered_iff.1 gathered).2.2⟩

theorem holds_fieldsAt_gathered (coherent : policy.Coherent) {record : Record}
    (new : policy.fieldsAt .gathered record ≠ []) : policy.Holds (.record (policy.fieldsAt .gathered record)) :=
  .record _ (policy.sorted_fieldsAt .gathered record) new
    (fun _ member => (of_mem_fieldsAt_gathered coherent member).1)
    (fun _ member => (of_mem_fieldsAt_gathered coherent member).2)

/-- A value that is no record can join fields under the reserved name, if that is at rest. -/
theorem Holds.insert {value : Value} (holds : policy.Holds value) (single : value.isRecord = false)
    (named : policy.rename policy.gatheredName = policy.gatheredName) {fresh : Record}
    (freshHolds : policy.Holds (.record fresh)) :
    policy.Holds (.record (Fields.insert fresh policy.gatheredName value)) := by
  cases holds with
  | record fields => cases single
  | single _ _ filled =>
    cases freshHolds with
    | single _ impossible _ => cases impossible
    | record _ sorted _ rest stay =>
      refine .record _ (Fields.sorted_insert sorted _ _) (Fields.insert_ne_nil _ _ _) ?_ ?_
      · intro field member
        rcases Fields.mem_of_mem_insert member with rfl | old
        · exact ⟨named, .single value single⟩
        · exact rest field old
      · intro field member
        rcases Fields.mem_of_mem_insert member with rfl | old
        · exact not_drops_of_filled _ filled
        · exact stay field old

theorem Holds.insertAll {fields fresh : Record} (holds : policy.Holds (.record fields))
    (freshHolds : policy.Holds (.record fresh)) : policy.Holds (.record (Fields.insertAll fields fresh)) := by
  cases holds with
  | single _ impossible _ => cases impossible
  | record _ sorted nonempty rest stay =>
    cases freshHolds with
    | single _ impossible _ => cases impossible
    | record _ _ _ freshRest freshStay =>
      refine .record _ (Fields.sorted_insertAll sorted fresh) ?_ ?_ ?_
      · intro empty
        exact nonempty (Fields.insertAll_eq_nil_iff.1 empty).1
      · intro field member
        exact (Fields.mem_of_mem_insertAll member).elim (rest field) (freshRest field)
      · intro field member
        exact (Fields.mem_of_mem_insertAll member).elim (stay field) (freshStay field)

/-- New fields that can stand under the reserved name can do so with an earlier value that can. Where that is
    no record it is a field of its own, so the reserved name must be at rest then. -/
theorem holds_gather {earlier : Option Value} {fresh : Record} (earlierHolds : ∀ value ∈ earlier, policy.Holds value)
    (freshHolds : fresh ≠ [] → policy.Holds (.record fresh))
    (named : ∀ value ∈ earlier, value.isRecord = false → fresh ≠ [] →
      policy.rename policy.gatheredName = policy.gatheredName)
    {value : Value} (gathered : policy.gather earlier fresh = some value) : policy.Holds value := by
  by_cases new : fresh = []
  · subst new
    rw [gather_nil] at gathered
    exact earlierHolds value gathered
  · cases earlier with
    | none =>
      rw [gather, if_neg new] at gathered
      cases gathered
      exact freshHolds new
    | some old =>
      cases kind : old.isRecord with
      | false =>
        rw [gather_of_single kind new] at gathered
        cases gathered
        exact (earlierHolds old rfl).insert kind (named old rfl kind new) (freshHolds new)
      | true =>
        obtain ⟨fields, rfl⟩ := Value.exists_record kind
        rw [gather, if_neg new] at gathered
        cases gathered
        exact (earlierHolds _ rfl).insertAll (freshHolds new)

/-- An earlier value that is no record is stored beside new fields, under a name with a dot to replace. -/
def NestsDotted (policy : Policy) (record : Record) : Prop :=
  Key.Touched policy.dotReplacement policy.gatheredName ∧
    (∃ value, policy.gatheredValue record = some value ∧ value.isRecord = false ∧ value.isEmpty = false) ∧
    ∃ field ∈ record, ¬ policy.Reserves field.1 ∧
      policy.place field.1 (policy.pruneValue field.2) = .gathered

theorem settled_siftedRecord (coherent : policy.Coherent) {record : Record} (flat : ¬ policy.NestsDotted record) :
    policy.Settled (policy.siftedRecord record) where
  sorted := sorted_siftedRecord record
  top := settledTop_siftedRecord coherent record
  gathered := by
    rw [gatheredValue_siftedRecord coherent, gatheredFrom]
    intro value
    refine holds_gather ?_ (holds_fieldsAt_gathered coherent) ?_
    · intro stays kept
      obtain ⟨old, _, kept⟩ := Option.bind_eq_some_iff.1 kept
      exact holds_of_resift coherent kept
    · intro stays kept single new
      by_contra moved
      obtain ⟨old, found, kept⟩ := Option.bind_eq_some_iff.1 kept
      rcases resift_cases kept with ⟨_, filled, rfl⟩ | ⟨fields, _, _, rfl⟩
      · rw [coherent.rename_eq_self_iff, not_not] at moved
        refine flat ⟨moved, ⟨stays, found, single, filled⟩, ?_⟩
        by_contra none
        exact new (fieldsAt_eq_nil_iff.2 fun field member free gathered => none ⟨field, member, free, gathered⟩)
      · cases single

/-- A gathered record in which the reserved name is touched is changed by a sift. -/
theorem unsettled_of_touched (coherent : policy.Coherent) {record bucket : Record} (top : policy.SettledTop record)
    (found : policy.gatheredValue record = some (.record bucket)) {field : String × Value} (member : field ∈ bucket)
    (touched : Key.Touched policy.dotReplacement field.1) :
    policy.siftAlters record = true ∧ policy.siftedRecord record ≠ record := by
  have moved : policy.rename field.1 ≠ field.1 := fun same => coherent.rename_eq_self_iff.1 same touched
  constructor
  · have altered : policy.alters field = true := by
      rw [alters, decide_eq_true moved, Bool.true_or]
    have changed : policy.resiftAlters (.record bucket) = true := by
      rw [resiftAlters, Bool.or_eq_true, List.any_eq_true]
      exact .inl ⟨field, member, by rw [altered, Bool.true_or]⟩
    rw [siftAlters, found, Option.any_some, changed, Bool.or_true]
  · intro same
    -- Every name in what stays has its dots taken out, so the touched name cannot be there again.
    have again := gatheredValue_siftedRecord coherent record
    rw [same, found, gatheredFrom, found, top.gathered_eq_nil, gather_nil, Option.bind_some, resift] at again
    split at again
    · cases again
    · injection again with again
      injection again with again
      rw [again] at member
      obtain ⟨source, _, _, stored⟩ := source_of_mem_staying member
      apply moved
      rw [← stored]
      exact coherent.rename_rename source.1

theorem gatheredFrom_of_nestsDotted {record : Record} (nests : policy.NestsDotted record) :
    ∃ bucket value, policy.gatheredFrom record = some (.record bucket) ∧
      (policy.gatheredName, value) ∈ bucket := by
  obtain ⟨_, ⟨value, found, single, filled⟩, field, member, free, gathered⟩ := nests
  have new : policy.fieldsAt .gathered record ≠ [] := fun none =>
    fieldsAt_eq_nil_iff.1 none field member free gathered
  refine ⟨Fields.insert (policy.fieldsAt .gathered record) policy.gatheredName value, value, ?_, ?_⟩
  · rw [gatheredFrom, found, Option.bind_some, resift_of_single single, filled, if_neg Bool.false_ne_true]
    exact gather_of_single single new
  · exact Fields.mem_of_get? ((Fields.get?_insert _ _ _ value).trans (if_pos rfl))

/-- A second sift neither reports nor makes a change, for all records but those in which an earlier value
    that is no record is put under a name with a dot: there it does both. -/
theorem sift_sift_unchanged_iff {settings : Settings} {policy : Policy} (accepted : settings.toPolicy = .ok policy)
    (record : Record) :
    ((policy.sift (policy.sift record).record).changed = false ↔ ¬ policy.NestsDotted record) ∧
      ((policy.sift (policy.sift record).record).record = (policy.sift record).record ↔
        ¬ policy.NestsDotted record) := by
  have coherent := Settings.coherent_of_toPolicy accepted
  simp only [sift]
  by_cases nests : policy.NestsDotted record
  · obtain ⟨bucket, value, gathered, member⟩ := gatheredFrom_of_nestsDotted nests
    rw [← gatheredValue_siftedRecord coherent] at gathered
    obtain ⟨changed, moved⟩ :=
      unsettled_of_touched coherent (settledTop_siftedRecord coherent record) gathered member nests.1
    simp [nests, changed, moved]
  · have settled := settled_siftedRecord coherent nests
    simp [nests, siftAlters_of_settled settled, siftedRecord_of_settled settled]

/-- Fields are gathered under a name with a dot, and dots are replaced. -/
def dottedSettings : Settings :=
  { Settings.initial with gathers := true, gatheredName := "more.fields", dotReplacement := "_" }

/-- The policy of these settings. -/
def dottedPolicy : Policy :=
  { initial with gathers := true, gatheredName := "more.fields", dotReplacement := some "_" }

/-- An earlier record under the dotted name is sifted once and for all. -/
theorem sift_sift_dotted_record :
    dottedSettings.toPolicy = .ok dottedPolicy ∧
      let record := [("a.b", .string "x"), ("more.fields", .record [("c.d", .null), ("e", .string "")])]
      ¬ dottedPolicy.NestsDotted record ∧
        (dottedPolicy.sift (dottedPolicy.sift record).record).changed = false ∧
        (dottedPolicy.sift (dottedPolicy.sift record).record).record = (dottedPolicy.sift record).record := by
  have accepted : dottedSettings.toPolicy = .ok dottedPolicy := rfl
  refine ⟨accepted, ?_⟩
  intro record
  have flat : ¬ dottedPolicy.NestsDotted record := by
    rintro ⟨_, ⟨value, found, single, _⟩, _⟩
    cases found
    cases single
  have unchanged := sift_sift_unchanged_iff accepted record
  exact ⟨flat, unchanged.1.2 flat, unchanged.2.2 flat⟩

/-- An earlier text under the dotted name is moved by the first sift and renamed by the second. -/
theorem sift_sift_dotted_text :
    dottedSettings.toPolicy = .ok dottedPolicy ∧
      let record := [("more.fields", .string "x"), ("size", .null)]
      (dottedPolicy.sift (dottedPolicy.sift record).record).changed = true ∧
        (dottedPolicy.sift (dottedPolicy.sift record).record).record ≠ (dottedPolicy.sift record).record :=
  ⟨rfl, by decide, by decide⟩

end LogSieve.Policy
