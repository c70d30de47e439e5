import LogSieve.Fields
import Mathlib.Data.List.Induction
import Mathlib.Data.List.Nodup
import Mathlib.Data.String.Basic
/-!
# Looking up fields

What is found under a name after a list of writes: the last one (`get?_ofList`). Fields
in ascending order are determined by what is found in them (`ext_get?`), so writing them
once more gives them back. If fields in order are written under other names, the greatest
of those that come to a name is the one found there (`lastWrite_ofList`).
-/
namespace LogSieve.Fields
variable {α β : Type}

/-! ## Look-up and membership -/

theorem mem_of_get? {fields : Fields α} {name : String} {value : α}
    (found : get? fields name = some value) : (name, value) ∈ fields := by
  induction fields with
  | nil => cases found
  | cons field rest ih =>
    obtain ⟨n, v⟩ := field
    by_cases same : n = name
    · subst same
      rw [get?, if_pos rfl, Option.some.injEq] at found
      exact found ▸ List.mem_cons_self
    · rw [get?, if_neg same] at found
      exact List.mem_cons_of_mem _ (ih found)

theorem get?_eq_none_iff {fields : Fields α} {name : String} :
    get? fields name = none ↔ ∀ field ∈ fields, field.1 ≠ name := by
  induction fields with
  | nil => simp
  | cons field rest ih =>
    obtain ⟨n, v⟩ := field
    by_cases same : n = name
    · simp [get?, same]
    · simp [get?, same, ih]

theorem mem_names_iff {fields : Fields α} {name : String} :
    name ∈ names fields ↔ (get? fields name).isSome = true := by
  rw [← Option.ne_none_iff_isSome, Ne, get?_eq_none_iff, names, List.mem_map]
  simp only [not_forall, not_not, exists_prop]

/-- Names without repetition are enough for every field to be found. -/
theorem get?_of_mem {fields : Fields α} (distinct : (fields.map (·.1)).Nodup) {name : String} {value : α}
    (member : (name, value) ∈ fields) : get? fields name = some value := by
  induction fields with
  | nil => cases member
  | cons field rest ih =>
    obtain ⟨n, v⟩ := field
    rw [List.map_cons, List.nodup_cons] at distinct
    rcases List.mem_cons.1 member with same | later
    · cases same
      rw [get?, if_pos rfl]
    · have other : n ≠ name := by
        rintro rfl
        exact distinct.1 (List.mem_map_of_mem (f := (·.1)) later)
      rw [get?, if_neg other]
      exact ih distinct.2 later

theorem get?_append (fields later : Fields α) (name : String) :
    get? (fields ++ later) name = (get? fields name).or (get? later name) := by
  induction fields with
  | nil => simp
  | cons field rest ih =>
    obtain ⟨n, v⟩ := field
    by_cases same : n = name
    · simp [get?, same]
    · simp [get?, same, ih]

theorem get?_erase (fields : Fields α) (name other : String) :
    get? (erase fields name) other = if other = name then none else get? fields other := by
  induction fields with
  | nil => simp [erase]
  | cons field rest ih =>
    obtain ⟨n, v⟩ := field
    by_cases same : n = name
    · have step : erase ((n, v) :: rest) name = erase rest name := by simp [erase, same]
      rw [step, ih, get?, same]
      grind
    · have step : erase ((n, v) :: rest) name = (n, v) :: erase rest name := by simp [erase, same]
      rw [step, get?, get?, ih]
      grind

/-! ## Order -/

theorem sorted_nodup {fields : Fields α} (sorted : Sorted fields) : (fields.map (·.1)).Nodup := by
  rw [List.Nodup, List.pairwise_map]
  exact sorted.imp (fun below => below.ne)

theorem sorted_filter {fields : Fields α} (sorted : Sorted fields) (keep : String × α → Bool) :
    Sorted (fields.filter keep) :=
  List.Pairwise.filter keep sorted

theorem sorted_erase {fields : Fields α} (sorted : Sorted fields) (name : String) : Sorted (erase fields name) :=
  sorted_filter sorted _

theorem get?_eq_some_iff {fields : Fields α} (sorted : Sorted fields) {name : String} {value : α} :
    get? fields name = some value ↔ (name, value) ∈ fields :=
  ⟨mem_of_get?, get?_of_mem (sorted_nodup sorted)⟩

theorem eq_of_name_eq {fields : Fields α} (sorted : Sorted fields) {field other : String × α}
    (member : field ∈ fields) (otherMember : other ∈ fields) (same : field.1 = other.1) : field = other :=
  List.inj_on_of_nodup_map (sorted_nodup sorted) member otherMember same

/-- Fields in order are the same if the same is found in them. -/
theorem ext_get? {fields others : Fields α} (sorted : Sorted fields) (sortedOthers : Sorted others)
    (same : ∀ name, get? fields name = get? others name) : fields = others := by
  have members : ∀ field, field ∈ fields ↔ field ∈ others := by
    rintro ⟨name, value⟩
    rw [← get?_eq_some_iff sorted, ← get?_eq_some_iff sortedOthers, same]
  have perm : fields.Perm others :=
    (List.perm_ext_iff_of_nodup (List.Nodup.of_map _ (sorted_nodup sorted))
      (List.Nodup.of_map _ (sorted_nodup sortedOthers))).2 members
  exact perm.eq_of_pairwise (fun a b _ _ below above => absurd below (lt_asymm above)) sorted sortedOthers

/-! ## Writing -/

/-- The last write under a name counts, and the old value where there is none. -/
theorem get?_insertAll (fields later : Fields α) (name : String) :
    get? (insertAll fields later) name = (get? later.reverse name).or (get? fields name) := by
  induction later generalizing fields with
  | nil => simp [insertAll]
  | cons field rest ih =>
    have step : insertAll fields (field :: rest) = insertAll (insert fields field.1 field.2) rest := rfl
    rw [step, ih, List.reverse_cons, get?_append, get?_insert]
    by_cases same : field.1 = name
    · simp [get?, same]
    · have other : name ≠ field.1 := fun equal => same equal.symm
      simp [get?, same, other]

theorem get?_ofList (writes : List (String × α)) (name : String) :
    get? (ofList writes) name = get? (α := α) writes.reverse name := by
  rw [ofList, get?_insertAll, get?_nil, Option.or_none]

/-- Nothing written under a name is lost but to a later write under it. -/
theorem get?_ofList_eq_none_iff {writes : List (String × α)} {name : String} :
    get? (ofList writes) name = none ↔ ∀ field ∈ writes, field.1 ≠ name := by
  rw [get?_ofList, get?_eq_none_iff]
  simp only [List.mem_reverse]

theorem insert_ne_nil (fields : Fields α) (name : String) (value : α) : insert fields name value ≠ [] := by
  intro empty
  have found := get?_insert fields name name value
  rw [empty, get?_nil, if_pos rfl] at found
  cases found

theorem insertAll_eq_nil_iff {fields later : Fields α} : insertAll fields later = [] ↔ fields = [] ∧ later = [] := by
  induction later generalizing fields with
  | nil => simp [insertAll]
  | cons field rest ih =>
    have step : insertAll fields (field :: rest) = insertAll (insert fields field.1 field.2) rest := rfl
    rw [step, ih]
    constructor
    · rintro ⟨empty, _⟩
      exact absurd empty (insert_ne_nil fields field.1 field.2)
    · rintro ⟨_, empty⟩
      cases empty

theorem ofList_eq_nil_iff {writes : List (String × α)} : ofList writes = [] ↔ writes = [] := by
  rw [ofList, insertAll_eq_nil_iff, and_iff_right rfl]

theorem mem_of_mem_insertAll {fields later : Fields α} {field : String × α}
    (member : field ∈ insertAll fields later) : field ∈ fields ∨ field ∈ later := by
  induction later generalizing fields with
  | nil => exact .inl member
  | cons first rest ih =>
    rcases ih member with stored | written
    · rcases mem_of_mem_insert stored with same | old
      · exact .inr (same ▸ List.mem_cons_self)
      · exact .inl old
    · exact .inr (List.mem_cons_of_mem _ written)

theorem mem_of_mem_ofList {writes : List (String × α)} {field : String × α} (member : field ∈ ofList writes) :
    field ∈ writes := by
  rcases mem_of_mem_insertAll member with old | written
  · cases old
  · exact written

/-- What is found was written after everything else under its name. -/
theorem exists_last_write {writes : List (String × α)} {name : String} {value : α}
    (found : get? (ofList writes) name = some value) :
    ∃ before after, writes = before ++ (name, value) :: after ∧ ∀ field ∈ after, field.1 ≠ name := by
  rw [get?_ofList] at found
  induction writes using List.reverseRecOn with
  | nil => cases found
  | append_singleton rest last ih =>
    obtain ⟨n, v⟩ := last
    rw [List.reverse_append, List.reverse_singleton, List.singleton_append, get?] at found
    by_cases same : n = name
    · rw [if_pos same, Option.some.injEq] at found
      subst same found
      exact ⟨rest, [], rfl, by simp⟩
    · rw [if_neg same] at found
      obtain ⟨before, after, rfl, later⟩ := ih found
      refine ⟨before, after ++ [(n, v)], by simp, ?_⟩
      intro field member
      rcases List.mem_append.1 member with inside | last
      · exact later field inside
      · rw [List.mem_singleton.1 last]
        exact same

/-- Writes under different names are all found. -/
theorem get?_ofList_of_mem {writes : List (String × α)} (distinct : (writes.map (·.1)).Nodup) {name : String}
    {value : α} (member : (name, value) ∈ writes) : get? (ofList writes) name = some value := by
  have reversed : (writes.reverse.map (·.1)).Nodup := by
    rw [List.map_reverse]
    exact List.nodup_reverse.2 distinct
  rw [get?_ofList]
  exact get?_of_mem reversed (List.mem_reverse.2 member)

/-- The order in which fields of different names are written makes no difference. -/
theorem ofList_perm {writes others : List (String × α)} (perm : writes.Perm others)
    (distinct : (writes.map (·.1)).Nodup) : ofList writes = ofList others := by
  have otherDistinct : (others.map (·.1)).Nodup := (perm.map (·.1)).nodup_iff.1 distinct
  apply ext_get? (sorted_ofList writes) (sorted_ofList others)
  intro name
  cases found : get? (ofList writes) name with
  | none =>
    have absent := get?_ofList_eq_none_iff.1 found
    exact (get?_ofList_eq_none_iff.2 fun field member => absent field (perm.mem_iff.2 member)).symm
  | some value =>
    have member := perm.mem_iff.1 (mem_of_mem_ofList (mem_of_get? found))
    exact (get?_ofList_of_mem otherDistinct member).symm

theorem ofList_of_sorted {fields : Fields α} (sorted : Sorted fields) : ofList fields = fields := by
  apply ext_get? (sorted_ofList fields) sorted
  intro name
  have distinct := sorted_nodup sorted
  cases found : get? fields name with
  | none => exact get?_ofList_eq_none_iff.2 (get?_eq_none_iff.1 found)
  | some value => exact get?_ofList_of_mem distinct (mem_of_get? found)

theorem get?_insertAll_of_sorted (fields : Fields α) {later : Fields α} (sorted : Sorted later) (name : String) :
    get? (insertAll fields later) name = (get? later name).or (get? fields name) := by
  rw [get?_insertAll, ← get?_ofList, ofList_of_sorted sorted]

/-- A field that is taken out and stored again is where it was. -/
theorem insert_erase {fields : Fields α} (sorted : Sorted fields) {name : String} {value : α}
    (found : get? fields name = some value) : insert (erase fields name) name value = fields := by
  apply ext_get? (sorted_insert (sorted_erase sorted name) name value) sorted
  intro other
  rw [get?_insert, get?_erase]
  by_cases same : other = name
  · rw [if_pos same, same, found]
  · rw [if_neg same, if_neg same]

/-- A new field that is taken out again leaves what was there. -/
theorem erase_insert {fields : Fields α} (sorted : Sorted fields) {name : String} (absent : get? fields name = none)
    (value : α) : erase (insert fields name value) name = fields := by
  apply ext_get? (sorted_erase (sorted_insert sorted name value) name) sorted
  intro other
  rw [get?_erase, get?_insert]
  by_cases same : other = name
  · rw [if_pos same, same, absent]
  · rw [if_neg same, if_neg same]

theorem erase_of_get?_eq_none {fields : Fields α} {name : String} (absent : get? fields name = none) :
    erase fields name = fields := by
  rw [erase, List.filter_eq_self]
  intro field member
  exact decide_eq_true (get?_eq_none_iff.1 absent field member)

/-! ## Fields written under other names -/

/-- What stands under a name once the fields that count have been written in their order, each as `write` has
    it: nothing if none comes to that name, and otherwise what the last of those that do is written as. -/
def LastWrite (write : String × α → String × β) (counts : String × α → Prop) (fields : Fields α) (name : String) :
    Option β → Prop
  | none => ∀ field ∈ fields, counts field → (write field).1 ≠ name
  | some value =>
    ∃ field ∈ fields, counts field ∧ (write field).1 = name ∧ (write field).2 = value ∧
      ∀ other ∈ fields, counts other → (write other).1 = name → other.1 ≤ field.1

section
variable {write : String × α → String × β} {counts : String × α → Prop} {fields : Fields α} {name : String}
  {found other : Option β}

theorem lastWrite_ofList (sorted : Sorted fields) {chosen : String × α → Bool}
    (same : ∀ field, chosen field = true ↔ counts field) (name : String) :
    LastWrite write counts fields name (get? (ofList ((fields.filter chosen).map write)) name) := by
  cases found : get? (ofList ((fields.filter chosen).map write)) name with
  | none =>
    intro field member counted
    have written : write field ∈ (fields.filter chosen).map write :=
      List.mem_map_of_mem (List.mem_filter.2 ⟨member, (same field).2 counted⟩)
    exact get?_ofList_eq_none_iff.1 found _ written
  | some value =>
    -- The fields behind the one that was found come to other names, and those before it have smaller ones.
    obtain ⟨before, after, split, later⟩ := exists_last_write found
    obtain ⟨front, back, parts, _, backWritten⟩ := List.map_eq_append_iff.1 split
    obtain ⟨field, rest, rfl, written, restWritten⟩ := List.map_eq_cons_iff.1 backWritten
    have inside : field ∈ fields.filter chosen := by simp [parts]
    obtain ⟨member, counted⟩ := List.mem_filter.1 inside
    refine ⟨field, member, (same field).1 counted, congrArg Prod.fst written, congrArg Prod.snd written, ?_⟩
    intro other otherMember otherCounts otherNamed
    have otherInside : other ∈ fields.filter chosen := List.mem_filter.2 ⟨otherMember, (same other).2 otherCounts⟩
    have order := sorted_filter sorted chosen
    rw [parts] at otherInside order
    rcases List.mem_append.1 otherInside with inFront | inBack
    · exact ((List.pairwise_append.1 order).2.2 other inFront field List.mem_cons_self).le
    · rcases List.mem_cons.1 inBack with rfl | inRest
      · exact le_rfl
      · have written : write other ∈ after := restWritten ▸ List.mem_map_of_mem inRest
        exact absurd otherNamed (later _ written)

/-- Something stands under a name if some field counts and comes to it. -/
theorem LastWrite.isSome_iff (last : LastWrite write counts fields name found) :
    found.isSome = true ↔ ∃ field ∈ fields, counts field ∧ (write field).1 = name := by
  cases found with
  | none =>
    simp only [Option.isSome_none, Bool.false_eq_true, false_iff]
    rintro ⟨field, member, counted, named⟩
    exact last field member counted named
  | some value =>
    obtain ⟨field, member, counted, named, _⟩ := last
    simp only [Option.isSome_some, true_iff]
    exact ⟨field, member, counted, named⟩

/-- No field but the last one can be the one whose value was found. -/
theorem LastWrite.eq_some (last : LastWrite write counts fields name found) (sorted : Sorted fields)
    {field : String × α} (member : field ∈ fields) (counted : counts field) (named : (write field).1 = name)
    (greatest : ∀ other ∈ fields, counts other → (write other).1 = name → other.1 ≤ field.1) :
    found = some (write field).2 := by
  cases found with
  | none => exact absurd named (last field member counted)
  | some value =>
    obtain ⟨source, sourceMember, sourceCounted, sourceNamed, written, sourceGreatest⟩ := last
    have below := greatest source sourceMember sourceCounted sourceNamed
    have above := sourceGreatest field member counted named
    have same := eq_of_name_eq sorted sourceMember member (le_antisymm below above)
    rw [← written, same]

/-- What stands under a name is determined. -/
theorem LastWrite.unique (last : LastWrite write counts fields name found)
    (otherLast : LastWrite write counts fields name other) (sorted : Sorted fields) : found = other := by
  cases other with
  | none =>
    have absent : ¬ found.isSome = true := fun some => by
      have impossible := otherLast.isSome_iff.2 (last.isSome_iff.1 some)
      cases impossible
    simpa using absent
  | some value =>
    obtain ⟨field, member, counted, named, rfl, greatest⟩ := otherLast
    exact last.eq_some sorted member counted named greatest

end

end LogSieve.Fields
