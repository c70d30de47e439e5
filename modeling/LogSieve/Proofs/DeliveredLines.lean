import LogSieve.Proofs.Json.Parsed
import LogSieve.Proofs.Redelivery
/-!
# Delivered lines

What is read from a line is as deep as a reader goes at most. Gathering puts fields one
level further down, so of a delivered record only what stands under the reserved name can
be one level too deep for the record to be read again (`widened_deliver`). As text it is not
(`parseOrdered_of_becameText`); a delivered line is delivered again as it is unless it is
that deep (`deliverLine_deliverLine`).
-/
namespace LogSieve

/-- Every number that is read from the line is a whole number of 64 bits. -/
def Json.HoldsWords (line : String) : Prop := ∀ value, Json.parseOrdered line = .ok value → value.Whole

theorem Json.legible_of_parseOrdered {line : String} (words : HoldsWords line) {value : Value}
    (read : parseOrdered line = .ok value) : value.Legible value.depth ∧ value.depth ≤ greatestDepth := by
  obtain ⟨inOrder, shallow⟩ := of_parseOrdered read
  exact ⟨⟨le_rfl, words value read, inOrder⟩, shallow⟩

theorem Json.holdsWords_text {value : Value} (legible : value.Legible greatestDepth) : HoldsWords value.text := by
  intro read same
  rw [parseOrdered_text legible] at same
  cases same
  exact legible.whole

namespace Policy
variable {policy : Policy} {limit : Nat}

/-! ## Fields that move -/

theorem legible_fieldsAt (place : Place) {record : Record} (inside : ∀ field ∈ record, field.2.Legible limit) :
    ∀ field ∈ policy.fieldsAt place record, field.2.Legible limit := by
  intro field member
  obtain ⟨source, known, _, _, rfl⟩ := source_of_mem_fieldsAt member
  exact (inside source known).prune _

theorem legible_of_resift {value stays : Value} (kept : policy.resift value = some stays)
    (legible : value.Legible limit) : stays.Legible limit := by
  rcases resift_cases kept with ⟨_, _, rfl⟩ | ⟨fields, rfl, _, rfl⟩
  · exact legible
  · cases limit with
    | zero => cases legible.depth_le
    | succ limit =>
      obtain ⟨_, inside⟩ := Value.legible_record_iff.1 legible
      refine Value.legible_record_iff.2 ⟨Fields.sorted_ofList _, ?_⟩
      intro field member
      obtain ⟨source, known, _, rfl⟩ := source_of_mem_staying member
      exact (inside source known).prune _

/-- Fields gathered now stand one level further down. -/
theorem legible_of_gather {earlier : Option Value} {fresh : Record}
    (earlierLegible : ∀ value ∈ earlier, value.Legible limit) (sorted : Fields.Sorted fresh)
    (inside : ∀ field ∈ fresh, field.2.Legible limit) {value : Value}
    (gathered : policy.gather earlier fresh = some value) : value.Legible (limit + 1) := by
  by_cases new : fresh = []
  · subst new
    rw [gather_nil] at gathered
    exact (earlierLegible value gathered).mono (Nat.le_succ limit)
  · cases earlier with
    | none =>
      rw [gather, if_neg new] at gathered
      cases gathered
      exact Value.legible_record_iff.2 ⟨sorted, inside⟩
    | some old =>
      have oldLegible := earlierLegible old rfl
      cases kind : old.isRecord with
      | false =>
        rw [gather_of_single kind new] at gathered
        cases gathered
        refine Value.legible_record_iff.2 ⟨Fields.sorted_insert sorted _ _, ?_⟩
        intro field member
        rcases Fields.mem_of_mem_insert member with rfl | other
        · exact oldLegible
        · exact inside field other
      | true =>
        obtain ⟨fields, rfl⟩ := Value.exists_record kind
        rw [gather, if_neg new] at gathered
        cases gathered
        obtain ⟨oldSorted, oldInside⟩ := Value.legible_record_iff.1 (oldLegible.mono (Nat.le_succ limit))
        refine Value.legible_record_iff.2 ⟨Fields.sorted_insertAll oldSorted fresh, ?_⟩
        intro field member
        exact (Fields.mem_of_mem_insertAll member).elim (oldInside field) (inside field)

theorem legible_of_gatheredFrom {record : Record} (inside : ∀ field ∈ record, field.2.Legible limit)
    {value : Value} (gathered : policy.gatheredFrom record = some value) : value.Legible (limit + 1) := by
  refine legible_of_gather ?_ (policy.sorted_fieldsAt .gathered record) (legible_fieldsAt .gathered inside) gathered
  intro stays kept
  obtain ⟨earlier, found, kept⟩ := Option.bind_eq_some_iff.1 kept
  exact legible_of_resift kept (inside _ (Fields.mem_of_get? (get?_of_gatheredValue found)))

/-! ## Delivered records -/

/-- The values of a record are legible so far down, and what it holds under the reserved name one level
    further. -/
structure Widened (policy : Policy) (limit : Nat) (record : Record) : Prop where
  sorted : Fields.Sorted record
  free : ∀ field ∈ record, ¬ policy.Reserves field.1 → field.2.Legible limit
  gathered : ∀ value, policy.gatheredValue record = some value → value.Legible (limit + 1)

theorem widened_siftedRecord (coherent : policy.Coherent) {record : Record}
    (inside : ∀ field ∈ record, field.2.Legible limit) : policy.Widened limit (policy.siftedRecord record) where
  sorted := sorted_siftedRecord record
  free := by
    intro field member free
    have top := mem_placed.2 ⟨member, free⟩
    rw [placed_siftedRecord coherent] at top
    exact legible_fieldsAt .top inside field top
  gathered := by
    intro value found
    rw [gatheredValue_siftedRecord coherent] at found
    exact legible_of_gatheredFrom inside found

theorem Widened.insert_text {record : Record} (widened : policy.Widened limit record)
    (gathers : policy.gathers = true) (text : String) :
    policy.Widened limit (Fields.insert record policy.gatheredName (.string text)) where
  sorted := Fields.sorted_insert widened.sorted _ _
  free := by
    intro field member free
    rcases Fields.mem_of_mem_insert member with rfl | old
    · exact absurd ⟨gathers, rfl⟩ free
    · exact widened.free field old free
  gathered := by
    intro value found
    rw [gatheredValue_insert gathers] at found
    cases found
    exact Value.legible_string _ text

theorem widened_deliver (coherent : policy.Coherent) {record : Record}
    (inside : ∀ field ∈ record, field.2.Legible limit) :
    policy.Widened limit (policy.deliver record).record := by
  have sifted := widened_siftedRecord coherent inside
  rcases deliver_cases policy record with ⟨fields, held, _, _, deliver⟩ | ⟨_, deliver⟩
  · rw [deliver]
    exact sifted.insert_text (gathers_of_gatheredValue held) _
  · rw [deliver]
    exact sifted

theorem Widened.mem_cases {record : Record} (widened : policy.Widened limit record) {field : String × Value}
    (member : field ∈ record) : policy.gatheredValue record = some field.2 ∨ field.2.Legible limit := by
  by_cases reserved : policy.Reserves field.1
  · left
    obtain ⟨gathers, name⟩ := reserved
    rw [gatheredValue, if_pos gathers, ← name]
    exact (Fields.get?_eq_some_iff widened.sorted).2 member
  · exact .inr (widened.free field member reserved)

theorem Widened.legible {record : Record} (widened : policy.Widened limit record) :
    (Value.record record).Legible (limit + 2) := by
  refine Value.legible_record_iff.2 ⟨widened.sorted, ?_⟩
  intro field member
  rcases widened.mem_cases member with reserved | shallow
  · exact widened.gathered field.2 reserved
  · exact shallow.mono (Nat.le_succ limit)

/-- Only what stands under the reserved name can make the record deeper than it was. -/
theorem Widened.depth_iff {record : Record} (widened : policy.Widened limit record) :
    limit + 1 < (Value.record record).depth ↔
      ∃ value, policy.gatheredValue record = some value ∧ value.depth = limit + 1 := by
  constructor
  · intro deep
    by_contra none
    refine absurd deep (Nat.not_lt.2 ?_)
    rw [Value.depth, Nat.add_le_add_iff_right, Value.fieldsDepth_le_iff]
    intro field member
    rcases widened.mem_cases member with reserved | shallow
    · have le := (widened.gathered field.2 reserved).depth_le
      have ne : field.2.depth ≠ limit + 1 := fun same => none ⟨field.2, reserved, same⟩
      omega
    · exact shallow.depth_le
  · rintro ⟨value, found, depth⟩
    have le : value.depth ≤ Value.fieldsDepth record :=
      Value.fieldsDepth_le_iff.1 le_rfl _ (Fields.mem_of_get? (get?_of_gatheredValue found))
    rw [Value.depth]
    omega

theorem Widened.legible_of_shallow {record : Record} (widened : policy.Widened limit record)
    (shallow : ∀ value, policy.gatheredValue record = some value → value.depth ≠ limit + 1) :
    (Value.record record).Legible (limit + 1) := by
  refine ⟨?_, widened.legible.whole, widened.legible.inOrder⟩
  by_contra deep
  obtain ⟨value, found, depth⟩ := widened.depth_iff.1 (Nat.not_le.1 deep)
  exact shallow value found depth

/-! ## Lines -/

theorem deliverLine_of_parseOrdered {line : String} {record : Record}
    (read : Json.parseOrdered line = .ok (.record record)) :
    policy.deliverLine line = .ok (policy.deliver record) := by
  rw [deliverLine_eq, read]

theorem exists_of_deliverLine {line : String} {delivery : Delivery}
    (delivered : policy.deliverLine line = .ok delivery) :
    ∃ record, Json.parseOrdered line = .ok (.record record) ∧ policy.deliver record = delivery := by
  rw [deliverLine_eq] at delivered
  split at delivered
  · cases delivered
  · rename_i record read
    cases delivered
    exact ⟨record, read, rfl⟩
  · cases delivered

theorem legible_of_line {line : String} (words : Json.HoldsWords line) {record : Record}
    (read : Json.parseOrdered line = .ok (.record record)) :
    ∀ field ∈ record, field.2.Legible 126 := by
  obtain ⟨legible, shallow⟩ := Json.legible_of_parseOrdered words read
  exact (Value.legible_record_iff.1 (legible.mono shallow)).2

/-- A gathered record that became text is read back from the text that is read back from the delivered line,
    and the other fields are as they were sifted. -/
theorem parseOrdered_of_becameText {settings : Settings} {policy : Policy}
    (accepted : settings.toPolicy = .ok policy) {line : String} (words : Json.HoldsWords line)
    {delivery : Delivery} (delivered : policy.deliverLine line = .ok delivery)
    (asText : delivery.becameText = true) :
    ∃ (record out gathered : Record) (text : String),
      Json.parseOrdered line = .ok (.record record) ∧
      Json.parseOrdered delivery.text = .ok (.record out) ∧
      out.get? policy.gatheredName = some (.string text) ∧
      Json.parseOrdered text = .ok (.record gathered) ∧
      (policy.sift record).record.get? policy.gatheredName = some (.record gathered) ∧
      ∀ name, name ≠ policy.gatheredName → out.get? name = (policy.sift record).record.get? name := by
  obtain ⟨record, read, rfl⟩ := exists_of_deliverLine delivered
  have sifted := widened_siftedRecord (Settings.coherent_of_toPolicy accepted) (legible_of_line words read)
  rcases deliver_cases policy record with ⟨gathered, held, _, _, deliver⟩ | ⟨_, deliver⟩
  · have gathers := gathers_of_gatheredValue held
    -- A text has no depth of its own, so nothing is one level too deep now.
    have stored := sifted.insert_text gathers (Record.text gathered)
    rw [deliver]
    refine ⟨record, _, gathered, Record.text gathered, read, Json.parseOrdered_text (stored.legible_of_shallow ?_), ?_,
      Json.parseOrdered_text (sifted.gathered _ held), get?_of_gatheredValue held, ?_⟩
    · intro value textFound
      rw [gatheredValue_insert gathers] at textFound
      cases textFound
      exact Nat.zero_ne_add_one 126
    · rw [Fields.get?_insert, if_pos rfl]
    · intro name other
      rw [Fields.get?_insert, if_neg other]
      rfl
  · rw [deliver] at asText
    cases asText

/-- Text with a quote in it, beside a record gathered earlier. -/
def quotedRecord : Record :=
  [("host", .string "a\"b"), ("time", .null), ("undefined", .record [("level", .bool true)])]

theorem legible_quotedRecord : (Value.record quotedRecord).Legible Json.greatestDepth := by
  refine ⟨by decide, ⟨trivial, trivial, ⟨trivial, trivial⟩, trivial⟩, ?_, trivial, trivial, ⟨?_, trivial, trivial⟩,
    trivial⟩
  · unfold Fields.Sorted
    decide
  · unfold Fields.Sorted
    decide

theorem deliverLine_quotedRecord :
    narrowPolicy.deliverLine (Record.text quotedRecord) = .ok (narrowPolicy.deliver quotedRecord) :=
  deliverLine_of_parseOrdered (Json.parseOrdered_text legible_quotedRecord)

/-- The quoted text stands in a text that stands in the delivered line, and is read back from there. -/
theorem parseOrdered_of_becameText_quoted :
    narrowSettings.toPolicy = .ok narrowPolicy ∧
      let line := Record.text quotedRecord
      let delivery := narrowPolicy.deliver quotedRecord
      Json.HoldsWords line ∧ narrowPolicy.deliverLine line = .ok delivery ∧ delivery.becameText = true ∧
        ∃ (out : Record) (text : String),
          Json.parseOrdered delivery.text = .ok (.record out) ∧
          out.get? "undefined" = some (.string text) ∧
          Json.parseOrdered text = .ok (.record [("host", .string "a\"b"), ("level", .bool true)]) := by
  have accepted : narrowSettings.toPolicy = .ok narrowPolicy := rfl
  have words := Json.holdsWords_text legible_quotedRecord
  obtain ⟨record, out, gathered, text, read, outRead, found, textRead, held, _⟩ :=
    parseOrdered_of_becameText accepted words deliverLine_quotedRecord rfl
  rw [Json.parseOrdered_text legible_quotedRecord] at read
  cases read
  cases held
  exact ⟨accepted, words, deliverLine_quotedRecord, rfl, out, text, outRead, found, textRead⟩

/-- What the record holds under the reserved name is as deep as a reader goes. -/
def FillsDepth (policy : Policy) (record : Record) : Prop :=
  ∃ value, policy.gatheredValue record = some value ∧ value.depth = Json.greatestDepth

/-- A delivered line is delivered again as it is, unless what it holds under the reserved name is as deep as a
    reader goes: only a line that is so deep itself is delivered like that, one level deeper, and the delivered
    line is refused for its depth. -/
theorem deliverLine_deliverLine {settings : Settings} {policy : Policy}
    (accepted : settings.toPolicy = .ok policy) {line : String} (words : Json.HoldsWords line)
    (reserves : ∀ record, Json.parseOrdered line = .ok (.record record) → policy.ReservesRecord record)
    {first : Delivery} (delivered : policy.deliverLine line = .ok first) :
    (¬ policy.FillsDepth first.record →
      ∃ second, policy.deliverLine first.text = .ok second ∧
        second.text = first.text ∧ second.changed = false ∧ second.becameText = false) ∧
    (policy.FillsDepth first.record →
      (∃ record, Json.parseOrdered line = .ok (.record record) ∧
        (Value.record record).depth = Json.greatestDepth) ∧
      (Value.record first.record).depth = Json.greatestDepth + 1 ∧
      ∃ error, policy.deliverLine first.text = .error (.recordSyntax error) ∧ error.cause = .tooDeep) := by
  obtain ⟨record, read, rfl⟩ := exists_of_deliverLine delivered
  have coherent := Settings.coherent_of_toPolicy accepted
  have widened := widened_deliver coherent (legible_of_line words read)
  constructor
  · intro shallow
    have again := deliver_of_delivered (delivered_deliver coherent (reserves record read))
    have readAgain := Json.parseOrdered_text
      (widened.legible_of_shallow fun value found depth => shallow ⟨value, found, depth⟩)
    refine ⟨_, deliverLine_of_parseOrdered readAgain, ?_⟩
    rw [again]
    exact ⟨rfl, rfl, rfl⟩
  · rintro ⟨value, found, depth⟩
    obtain ⟨legible, shallow⟩ := Json.legible_of_parseOrdered words read
    constructor
    · -- With the record's own depth as the limit, what it gathers is no deeper than the record was.
      rw [Value.depth] at legible shallow
      obtain ⟨_, inside⟩ := Value.legible_record_iff.1 legible
      have least := ((widened_deliver coherent inside).gathered value found).depth_le
      refine ⟨record, read, ?_⟩
      rw [Value.depth]
      omega
    · have deep := widened.depth_iff.2 ⟨value, found, depth⟩
      obtain ⟨error, failed, cause⟩ := Json.parseOrdered_text_of_deep widened.legible.whole deep
      refine ⟨le_antisymm widened.legible.depth_le deep, error, ?_, cause⟩
      rw [deliverLine_eq, Delivery.text, Record.text, failed]

/-- A record gathered earlier became text, and the line with that text stays as it is. -/
theorem deliverLine_deliverLine_quoted :
    narrowSettings.toPolicy = .ok narrowPolicy ∧
      let line := Record.text quotedRecord
      let first := narrowPolicy.deliver quotedRecord
      Json.HoldsWords line ∧
        (∀ record, Json.parseOrdered line = .ok (.record record) → narrowPolicy.ReservesRecord record) ∧
        narrowPolicy.deliverLine line = .ok first ∧ first.becameText = true ∧
        ¬ narrowPolicy.FillsDepth first.record ∧
        ∃ second, narrowPolicy.deliverLine first.text = .ok second ∧ second.text = first.text ∧
          second.changed = false ∧ second.becameText = false := by
  have accepted : narrowSettings.toPolicy = .ok narrowPolicy := rfl
  have words := Json.holdsWords_text legible_quotedRecord
  have reserves : ∀ record, Json.parseOrdered (Record.text quotedRecord) = .ok (.record record) →
      narrowPolicy.ReservesRecord record := by
    intro record read value found
    rw [Record.text, Json.parseOrdered_text legible_quotedRecord] at read
    cases read
    cases found
    rfl
  have shallow : ¬ narrowPolicy.FillsDepth (narrowPolicy.deliver quotedRecord).record := by
    rintro ⟨value, found, depth⟩
    cases found
    cases depth
  have again := (deliverLine_deliverLine accepted words reserves deliverLine_quotedRecord).1 shallow
  exact ⟨accepted, words, reserves, deliverLine_quotedRecord, rfl, shallow, again⟩

/-- All fields are gathered. -/
def gatheringSettings : Settings := { Settings.initial with gathers := true }

/-- The policy of these settings. -/
def gatheringPolicy : Policy := { initial with gathers := true }

/-- So many lists inside each other. -/
def nestedLists : Nat → Value
  | 0 => .null
  | n + 1 => .array [nestedLists n]

theorem depth_nestedLists (n : Nat) : (nestedLists n).depth = n := by
  induction n with
  | zero => rfl
  | succ n ih => rw [nestedLists, Value.depth, Value.itemsDepth, Value.itemsDepth, ih, Nat.max_zero]

theorem legible_nestedLists (n : Nat) : (nestedLists n).Legible n := by
  refine ⟨(depth_nestedLists n).le, ?_, ?_⟩
  · induction n with
    | zero => trivial
    | succ n ih => exact ⟨ih, trivial⟩
  · induction n with
    | zero => trivial
    | succ n ih => exact ⟨ih, trivial⟩

/-- A field that is as deep as a reader goes inside a record is gathered one level further down, and the
    delivered line is refused. -/
theorem deliverLine_refuses_nestedLists :
    gatheringSettings.toPolicy = .ok gatheringPolicy ∧
      let line := Record.text [("a", nestedLists 126)]
      Json.HoldsWords line ∧
        (∀ record, Json.parseOrdered line = .ok (.record record) → gatheringPolicy.ReservesRecord record) ∧
        ∃ first error, gatheringPolicy.deliverLine line = .ok first ∧
          gatheringPolicy.deliverLine first.text = .error (.recordSyntax error) ∧ error.cause = .tooDeep := by
  refine ⟨rfl, ?_⟩
  intro line
  have legible : (Value.record [("a", nestedLists 126)]).Legible Json.greatestDepth :=
    Value.legible_record_iff.2 ⟨List.pairwise_singleton _ _, by simp [legible_nestedLists]⟩
  have read : Json.parseOrdered line = .ok (.record [("a", nestedLists 126)]) := Json.parseOrdered_text legible
  have stored : (gatheringPolicy.deliver [("a", nestedLists 126)]).record =
      [("undefined", .record [("a", nestedLists 126)])] := rfl
  have whole : (Value.record [("undefined", .record [("a", nestedLists 126)])]).Whole := ⟨legible.whole, trivial⟩
  have deep : Json.greatestDepth < (Value.record [("undefined", .record [("a", nestedLists 126)])]).depth := by
    simp [Value.depth, Value.fieldsDepth, depth_nestedLists, Json.greatestDepth]
  obtain ⟨error, failed, cause⟩ := Json.parseOrdered_text_of_deep whole deep
  refine ⟨Json.holdsWords_text legible, ?_, _, error, deliverLine_of_parseOrdered read, ?_, cause⟩
  · intro record same value found
    rw [read] at same
    cases same
    cases found
  · rw [deliverLine_eq, Delivery.text, stored, Record.text, failed]

end Policy
end LogSieve
