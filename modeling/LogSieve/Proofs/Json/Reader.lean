import LogSieve.Json.Printer
import LogSieve.Proofs.Json.Numeral
import LogSieve.Proofs.Json.Quoted
import LogSieve.Proofs.Nesting
/-!
# Values read back

Every text of the grammar is read as the value that it stands for if that is nested no deeper
than the reader goes, and is refused for its depth if not (`readValue_spelled`). Such a reading
`Answers`: it goes on past each part that is not too deep, and ends at the first that is. What
is written of a value of whole numbers is a text for it (`spells_write`).
-/
namespace LogSieve.Json
open Value

/-! ## Readings that end for depth alone -/

/-- The reading gives the result if that fits, and is refused for its depth if it does not. -/
structure Answers {α : Type} (fits : Prop) (read : Except Fault α) (result : α) : Prop where
  reads : fits → read = .ok result
  refuses : ¬ fits → ∃ fault, read = .error fault ∧ fault.cause = .tooDeep

section
variable {α β : Type} {fits others : Prop} {read : Except Fault α} {result : α}

theorem Answers.of_ok (on : fits) (reads : read = .ok result) : Answers fits read result :=
  ⟨fun _ => reads, fun off => absurd on off⟩

theorem Answers.congr (answers : Answers fits read result) (same : fits ↔ others) : Answers others read result :=
  ⟨fun on => answers.reads (same.2 on), fun off => answers.refuses fun on => off (same.1 on)⟩

/-- A reading goes on only if what came before fits. -/
theorem Answers.bind {next : α → Except Fault β} {whole : β} (answers : Answers fits read result)
    (nextAnswers : Answers others (next result) whole) : Answers (fits ∧ others) (read >>= next) whole := by
  constructor
  · rintro ⟨on, othersOn⟩
    rw [answers.reads on]
    exact nextAnswers.reads othersOn
  · intro off
    by_cases on : fits
    · rw [answers.reads on]
      exact nextAnswers.refuses fun othersOn => off ⟨on, othersOn⟩
    · obtain ⟨fault, failed, cause⟩ := answers.refuses on
      rw [failed]
      exact ⟨fault, rfl, cause⟩

theorem Answers.map (answers : Answers fits read result) (f : α → β) : Answers fits (read.map f) (f result) := by
  constructor
  · intro on
    rw [answers.reads on]
    rfl
  · intro off
    obtain ⟨fault, failed, cause⟩ := answers.refuses off
    rw [failed]
    exact ⟨fault, rfl, cause⟩

end

/-- Any text for the value is read as the value if that fits, behind white space and wherever a value can end. -/
def Reads (reader : Reader Value) (limit : Nat) (fits : Prop) (value : Value) : Prop :=
  ∀ before inside rest, Spaces before → Spells value inside → inside.length < limit → Ends rest →
    Answers fits (reader (before ++ (inside ++ rest))) (value, rest)

/-! ## Fronts of texts -/

theorem skipSpace_cons {c : Char} (solid : isSpace c = false) (rest : List Char) :
    skipSpace (c :: rest) = c :: rest := by
  rw [skipSpace, List.dropWhile_cons, solid, if_neg Bool.false_ne_true]

theorem ne_of_isDigit {c other : Char} (digit : isDigit c = true) (notDigit : isDigit other = false) : c ≠ other := by
  rintro rfl
  rw [digit] at notDigit
  cases notDigit

theorem isSpace_of_isDigit {c : Char} (digit : isDigit c = true) : isSpace c = false := by
  have other := fun d => @ne_of_isDigit c d digit
  simp [isSpace, other ' ' rfl, other '\n' rfl, other '\t' rfl, other '\r' rfl]

section
variable {c : Char} (numeral : c = '-' ∨ isDigit c = true)
include numeral

theorem isSpace_of_numeral : isSpace c = false := by
  rcases numeral with rfl | digit
  · rfl
  · exact isSpace_of_isDigit digit

theorem ne_of_numeral {other : Char} (notDigit : isDigit other = false) (notMinus : '-' ≠ other) : c ≠ other := by
  rcases numeral with rfl | digit
  · exact notMinus
  · exact ne_of_isDigit digit notDigit

end

theorem spaces_nil : Spaces [] := by simp [Spaces]

theorem skipSpace_append {before : List Char} (spaces : Spaces before) (text : List Char) :
    skipSpace (before ++ text) = skipSpace text := List.dropWhile_append_of_pos spaces

theorem Ends.of_spaces {before rest : List Char} (ends : Ends rest) (spaces : Spaces before) :
    Ends (before ++ rest) := by
  intro c first
  cases before with
  | nil => exact ends c first
  | cons d more =>
    obtain rfl := Option.some.inj first
    exact .inl (spaces d List.mem_cons_self)

/-- The text begins as no white space does, and neither list nor record ends with it. -/
def Begins (text : List Char) : Prop := ∃ c more, text = c :: more ∧ isSpace c = false ∧ c ≠ ']' ∧ c ≠ '\x7d'

theorem skipSpace_of_begins {text : List Char} (begins : Begins text) (rest : List Char) :
    skipSpace (text ++ rest) = text ++ rest := by
  obtain ⟨c, more, rfl, solid, _⟩ := begins
  exact skipSpace_cons solid _

theorem begins_of_spellsNumeral {n : Numeral} {text : List Char} (numeral : SpellsNumeral n text) : Begins text := by
  obtain ⟨c, more, rfl, front⟩ := exists_numeral_eq numeral
  exact ⟨c, more, rfl, isSpace_of_numeral front, ne_of_numeral front rfl (by decide),
    ne_of_numeral front rfl (by decide)⟩

theorem begins_of_spells {value : Value} {text : List Char} (spelled : Spells value text) : Begins text := by
  cases value with
  | null => exact ⟨'n', _, spelled, rfl, by decide⟩
  | bool b => cases b <;> exact ⟨_, _, spelled, rfl, by decide⟩
  | number number =>
    obtain ⟨n, numeral, _⟩ := spelled
    exact begins_of_spellsNumeral numeral
  | string s =>
    obtain ⟨inside, _, rfl⟩ := spelled
    exact ⟨'"', _, rfl, rfl, by decide⟩
  | array items =>
    obtain ⟨inside, _, rfl⟩ := spelled
    exact ⟨'[', _, rfl, rfl, by decide⟩
  | record fields =>
    obtain ⟨inside, _, rfl⟩ := spelled
    exact ⟨'\x7b', _, rfl, rfl, by decide⟩

/-! ## Lists -/

section
variable {gap before inside : List Char}

theorem nextItem_end (spaces : Spaces gap) (first : Bool) (rest : List Char) :
    nextItem first (gap ++ ']' :: rest) = .ok (false, rest) := by
  rw [nextItem, skipSpace_append spaces, skipSpace_cons rfl]
  rfl

theorem nextItem_first (spaces : Spaces before) (begins : Begins inside) (rest : List Char) :
    nextItem true (before ++ (inside ++ rest)) = .ok (true, inside ++ rest) := by
  obtain ⟨c, more, rfl, solid, goesOn, _⟩ := begins
  rw [nextItem, skipSpace_append spaces, List.cons_append, skipSpace_cons solid]
  simp [goesOn]

theorem nextItem_comma (gapSpaces : Spaces gap) (spaces : Spaces before) (begins : Begins inside)
    (rest : List Char) :
    nextItem false (gap ++ ',' :: (before ++ (inside ++ rest))) = .ok (true, inside ++ rest) := by
  obtain ⟨c, more, rfl, solid, goesOn, _⟩ := begins
  rw [nextItem, skipSpace_append gapSpaces, skipSpace_cons rfl]
  simp [skipSpace_append spaces, skipSpace_cons solid, goesOn]

theorem ends_moreItems {items : List Value} {more : List Char} (spelled : SpellsMoreItems items more)
    (rest : List Char) : Ends (more ++ ']' :: rest) := by
  intro c first
  cases items with
  | nil =>
    cases spelled
    exact .inr (.inr (.inl (Option.some.inj first).symm))
  | cons item others =>
    obtain ⟨_, _, _, _, rfl⟩ := spelled
    exact .inr (.inl (Option.some.inj first).symm)

end

section
variable {item : Reader Value} {fits : Value → Prop} {items : List Value} {bound limit : Nat}

theorem readItems_eq {first : Bool} {text more : List Char} (goesOn : nextItem first text = .ok (true, more)) :
    readItems item (bound + 1) first text =
      item more >>= fun head =>
        (readItems item bound false head.2).map fun tail => (head.1 :: tail.1, tail.2) := by
  rw [readItems, goesOn]
  cases read : item more with
  | error fault => simp [bind, Except.bind, read]
  | ok head =>
    cases tail : readItems item bound false head.2 with
    | error fault => simp [bind, Except.bind, Except.map, read, tail]
    | ok others => simp [bind, Except.bind, Except.map, read, tail]

/-- The items of a list behind the first are read if each of them is. -/
theorem readItems_moreItems (reads : ∀ value ∈ items, Reads item limit (fits value) value) {gap more : List Char}
    (gapSpaces : Spaces gap) (spelled : SpellsMoreItems items more) (short : more.length < bound)
    (within : more.length ≤ limit) (rest : List Char) :
    Answers (∀ value ∈ items, fits value) (readItems item bound false (gap ++ (more ++ ']' :: rest)))
      (items, rest) := by
  induction items generalizing bound gap more with
  | nil =>
    cases spelled
    cases bound with
    | zero => cases short
    | succ bound =>
      refine .of_ok (by simp) ?_
      rw [List.nil_append, readItems, nextItem_end gapSpaces]
      rfl
  | cons value others ih =>
    obtain ⟨_, more, ⟨before, inside, after, spaces, valueSpelled, afterSpaces, rfl⟩, moreSpelled, rfl⟩ := spelled
    obtain ⟨valueReads, othersRead⟩ := List.forall_mem_cons.1 reads
    simp only [List.length_cons, List.length_append] at short within
    cases bound with
    | zero => cases short
    | succ bound =>
      have goesOn := nextItem_comma gapSpaces spaces (begins_of_spells valueSpelled) (after ++ (more ++ ']' :: rest))
      have ends := (ends_moreItems moreSpelled rest).of_spaces afterSpaces
      have head := valueReads [] inside _ spaces_nil valueSpelled (by omega) ends
      have shorter : more.length < bound := by omega
      have tail := ih othersRead afterSpaces moreSpelled shorter (by omega)
      simp only [List.cons_append, List.append_assoc]
      rw [readItems_eq goesOn]
      exact (head.bind (tail.map fun read => (value :: read.1, read.2))).congr List.forall_mem_cons.symm

/-- The items of a list are read if each of them is. -/
theorem readItems_items (reads : ∀ value ∈ items, Reads item limit (fits value) value) {text : List Char}
    (spelled : SpellsItems items text) (short : text.length < bound) (within : text.length < limit)
    (rest : List Char) :
    Answers (∀ value ∈ items, fits value) (readItems item bound true (text ++ ']' :: rest)) (items, rest) := by
  cases bound with
  | zero => cases short
  | succ bound =>
    cases items with
    | nil =>
      refine .of_ok (by simp) ?_
      rw [readItems, nextItem_end spelled]
      rfl
    | cons value others =>
      obtain ⟨_, more, ⟨before, inside, after, spaces, valueSpelled, afterSpaces, rfl⟩, moreSpelled, rfl⟩ :=
        spelled
      obtain ⟨valueReads, othersRead⟩ := List.forall_mem_cons.1 reads
      obtain ⟨c, letters, written, _⟩ := begins_of_spells valueSpelled
      have positive : 0 < inside.length := by simp [written]
      simp only [List.length_append] at short within
      have goesOn := nextItem_first spaces (begins_of_spells valueSpelled) (after ++ (more ++ ']' :: rest))
      have ends := (ends_moreItems moreSpelled rest).of_spaces afterSpaces
      have head := valueReads [] inside _ spaces_nil valueSpelled (by omega) ends
      have shorter : more.length < bound := by omega
      have tail := readItems_moreItems othersRead afterSpaces moreSpelled shorter (by omega) rest
      simp only [List.append_assoc]
      rw [readItems_eq goesOn]
      exact (head.bind (tail.map fun read => (value :: read.1, read.2))).congr List.forall_mem_cons.symm

end

/-! ## Records -/

section
variable {gap before inside key : List Char} {name : String}

theorem readKey_spelled (spelled : SpellsString name key) (rest : List Char) :
    readKey (key ++ rest) = .ok (some name, rest) := by
  obtain ⟨inside, characters, rfl⟩ := spelled
  simp [readKey, readString_spelled characters rest, bind, Except.bind]

theorem nextKey_end (spaces : Spaces gap) (first : Bool) (rest : List Char) :
    nextKey first (gap ++ '\x7d' :: rest) = .ok (none, rest) := by
  rw [nextKey, skipSpace_append spaces, skipSpace_cons rfl]
  rfl

theorem nextKey_first (spaces : Spaces before) (spelled : SpellsString name key) (rest : List Char) :
    nextKey true (before ++ (key ++ rest)) = .ok (some name, rest) := by
  have read := readKey_spelled spelled rest
  obtain ⟨inside, _, rfl⟩ := spelled
  rw [nextKey, skipSpace_append spaces, List.cons_append, skipSpace_cons rfl]
  exact read

theorem nextKey_comma (gapSpaces : Spaces gap) (spaces : Spaces before) (spelled : SpellsString name key)
    (rest : List Char) :
    nextKey false (gap ++ ',' :: (before ++ (key ++ rest))) = .ok (some name, rest) := by
  have read := readKey_spelled spelled rest
  obtain ⟨inside, _, rfl⟩ := spelled
  simp only [nextKey, skipSpace_append gapSpaces, skipSpace_cons (c := ',') rfl]
  simp only [skipSpace_append spaces, List.cons_append, skipSpace_cons (c := '"') rfl]
  exact read

theorem afterColon_spaces (spaces : Spaces gap) (rest : List Char) : afterColon (gap ++ ':' :: rest) = .ok rest := by
  rw [afterColon, skipSpace_append spaces, skipSpace_cons rfl]
  rfl

theorem ends_moreFields {fields : List (String × Value)} {more : List Char}
    (spelled : SpellsMoreFields fields more) (rest : List Char) : Ends (more ++ '\x7d' :: rest) := by
  intro c first
  cases fields with
  | nil =>
    cases spelled
    exact .inr (.inr (.inr (Option.some.inj first).symm))
  | cons field others =>
    obtain ⟨_, _, _, _, _, _, rfl⟩ := spelled
    exact .inr (.inl (Option.some.inj first).symm)

end

section
variable {reader : Reader Value} {fits : String × Value → Prop} {fields : List (String × Value)} {bound limit : Nat}

theorem readFields_eq {first : Bool} {text behind more : List Char} {name : String}
    (goesOn : nextKey first text = .ok (some name, behind)) (colon : afterColon behind = .ok more) :
    readFields reader (bound + 1) first text =
      reader more >>= fun head =>
        (readFields reader bound false head.2).map fun tail => ((name, head.1) :: tail.1, tail.2) := by
  rw [readFields, goesOn]
  cases read : reader more with
  | error fault => simp [bind, Except.bind, colon, read]
  | ok head =>
    cases tail : readFields reader bound false head.2 with
    | error fault => simp [bind, Except.bind, Except.map, colon, read, tail]
    | ok others => simp [bind, Except.bind, Except.map, colon, read, tail]

/-- The fields of a record behind the first are read if each of their values is. -/
theorem readFields_moreFields (reads : ∀ field ∈ fields, Reads reader limit (fits field) field.2)
    {gap more : List Char} (gapSpaces : Spaces gap) (spelled : SpellsMoreFields fields more)
    (short : more.length < bound) (within : more.length ≤ limit) (rest : List Char) :
    Answers (∀ field ∈ fields, fits field) (readFields reader bound false (gap ++ (more ++ '\x7d' :: rest)))
      (fields, rest) := by
  induction fields generalizing bound gap more with
  | nil =>
    cases spelled
    cases bound with
    | zero => cases short
    | succ bound =>
      refine .of_ok (by simp) ?_
      rw [List.nil_append, readFields, nextKey_end gapSpaces]
      rfl
  | cons field others ih =>
    obtain ⟨name, value⟩ := field
    obtain ⟨_, _, more, ⟨keyBefore, key, keyAfter, keySpaces, keySpelled, colonSpaces, rfl⟩,
      ⟨before, inside, after, spaces, valueSpelled, afterSpaces, rfl⟩, moreSpelled, rfl⟩ := spelled
    obtain ⟨valueReads, othersRead⟩ := List.forall_mem_cons.1 reads
    simp only [List.length_cons, List.length_append] at short within
    cases bound with
    | zero => cases short
    | succ bound =>
      have goesOn := nextKey_comma gapSpaces keySpaces keySpelled
        (keyAfter ++ ':' :: (before ++ (inside ++ (after ++ (more ++ '\x7d' :: rest)))))
      have ends := (ends_moreFields moreSpelled rest).of_spaces afterSpaces
      have head := valueReads before inside _ spaces valueSpelled (by omega) ends
      have shorter : more.length < bound := by omega
      have tail := ih othersRead afterSpaces moreSpelled shorter (by omega)
      simp only [List.cons_append, List.append_assoc]
      rw [readFields_eq goesOn (afterColon_spaces colonSpaces _)]
      exact (head.bind (tail.map fun read => ((name, value) :: read.1, read.2))).congr List.forall_mem_cons.symm

/-- The fields of a record are read if each of their values is. -/
theorem readFields_fields (reads : ∀ field ∈ fields, Reads reader limit (fits field) field.2) {text : List Char}
    (spelled : SpellsFields fields text) (short : text.length < bound) (within : text.length < limit)
    (rest : List Char) :
    Answers (∀ field ∈ fields, fits field) (readFields reader bound true (text ++ '\x7d' :: rest))
      (fields, rest) := by
  cases bound with
  | zero => cases short
  | succ bound =>
    cases fields with
    | nil =>
      refine .of_ok (by simp) ?_
      rw [readFields, nextKey_end spelled]
      rfl
    | cons field others =>
      obtain ⟨name, value⟩ := field
      obtain ⟨_, _, more, ⟨keyBefore, key, keyAfter, keySpaces, keySpelled, colonSpaces, rfl⟩,
        ⟨before, inside, after, spaces, valueSpelled, afterSpaces, rfl⟩, moreSpelled, rfl⟩ := spelled
      obtain ⟨valueReads, othersRead⟩ := List.forall_mem_cons.1 reads
      simp only [List.length_cons, List.length_append] at short within
      have goesOn := nextKey_first keySpaces keySpelled
        (keyAfter ++ ':' :: (before ++ (inside ++ (after ++ (more ++ '\x7d' :: rest)))))
      have ends := (ends_moreFields moreSpelled rest).of_spaces afterSpaces
      have head := valueReads before inside _ spaces valueSpelled (by omega) ends
      have shorter : more.length < bound := by omega
      have tail := readFields_moreFields othersRead afterSpaces moreSpelled shorter (by omega) rest
      simp only [List.cons_append, List.append_assoc]
      rw [readFields_eq goesOn (afterColon_spaces colonSpaces _)]
      exact (head.bind (tail.map fun read => ((name, value) :: read.1, read.2))).congr List.forall_mem_cons.symm

end

/-! ## Values -/

section
variable {bound depth : Nat}

theorem readValue_list (rest : List Char) :
    readValue bound (depth + 1) ('[' :: rest) =
      (readItems (readValue bound depth) bound true rest).map fun read => (.array read.1, read.2) := rfl

theorem readValue_record (rest : List Char) :
    readValue bound (depth + 1) ('\x7b' :: rest) =
      (readFields (readValue bound depth) bound true rest).map fun read => (.record read.1, read.2) := rfl

theorem readValue_string (rest : List Char) :
    readValue bound depth ('"' :: rest) =
      (readString rest).map fun read => (.string (String.ofList read.1), read.2) := by
  cases depth <;> rfl

theorem readValue_number {c : Char} (numeral : c = '-' ∨ isDigit c = true) (rest : List Char) :
    readValue bound depth (c :: rest) =
      (readNumber (c :: rest)).map fun read => (.number read.1, read.2) := by
  have notNull : c ≠ 'n' := ne_of_numeral numeral rfl (by decide)
  have notTrue : c ≠ 't' := ne_of_numeral numeral rfl (by decide)
  have notFalse : c ≠ 'f' := ne_of_numeral numeral rfl (by decide)
  have notString : c ≠ '"' := ne_of_numeral numeral rfl (by decide)
  rw [readValue.eq_def, skipSpace_cons (isSpace_of_numeral numeral)]
  simp only [notNull, notTrue, notFalse, notString, numeral, if_true, if_false]

theorem readValue_spaces {before : List Char} (spaces : Spaces before) (text : List Char) :
    readValue bound depth (before ++ text) = readValue bound depth text := by
  rw [readValue.eq_def, skipSpace_append spaces, ← readValue.eq_def]

/-- Every text for a value is read as the value where a value can end if the reader goes deep enough, and is
    refused for its depth if not. -/
theorem readValue_spelled (bound depth : Nat) (value : Value) :
    Reads (readValue bound depth) bound (value.depth ≤ depth) value := by
  induction value using nested_induction generalizing depth with
  | null =>
    rintro before inside rest spaces rfl short ends
    rw [readValue_spaces spaces]
    refine .of_ok (Nat.zero_le depth) ?_
    cases depth <;> rfl
  | bool b =>
    rintro before inside rest spaces rfl short ends
    rw [readValue_spaces spaces]
    refine .of_ok (Nat.zero_le depth) ?_
    cases b <;> cases depth <;> rfl
  | number n =>
    intro before inside rest spaces spelled short ends
    rw [readValue_spaces spaces]
    refine .of_ok (Nat.zero_le depth) ?_
    have read := readNumber_spelled spelled ends
    obtain ⟨numeral, spelled, _⟩ := spelled
    obtain ⟨c, more, rfl, front⟩ := exists_numeral_eq spelled
    rw [List.cons_append] at read ⊢
    rw [readValue_number front, read]
    rfl
  | string s =>
    rintro before _ rest spaces ⟨inside, spelled, rfl⟩ short ends
    rw [readValue_spaces spaces]
    refine .of_ok (Nat.zero_le depth) ?_
    rw [List.cons_append, List.append_assoc, readValue_string, List.singleton_append, readString_spelled spelled]
    simp [Except.map]
  | array items ih =>
    rintro before _ rest spaces ⟨inside, spelled, rfl⟩ short ends
    rw [readValue_spaces spaces, List.cons_append, List.append_assoc, List.singleton_append]
    simp only [List.length_cons, List.length_append] at short
    -- A reader that opens nothing refuses the bracket, whatever stands behind it.
    cases depth with
    | zero => exact ⟨fun impossible => absurd impossible (Nat.not_succ_le_zero _), fun _ => ⟨_, rfl, rfl⟩⟩
    | succ depth =>
      have shorter : inside.length < bound := by omega
      have read := readItems_items (fun item member => ih item member depth) spelled shorter shorter rest
      rw [readValue_list, Value.depth, Nat.add_le_add_iff_right, itemsDepth_le_iff]
      exact read.map fun read => (Value.array read.1, read.2)
  | record fields ih =>
    rintro before _ rest spaces ⟨inside, spelled, rfl⟩ short ends
    rw [readValue_spaces spaces, List.cons_append, List.append_assoc, List.singleton_append]
    simp only [List.length_cons, List.length_append] at short
    cases depth with
    | zero => exact ⟨fun impossible => absurd impossible (Nat.not_succ_le_zero _), fun _ => ⟨_, rfl, rfl⟩⟩
    | succ depth =>
      have shorter : inside.length < bound := by omega
      have read := readFields_fields (fun field member => ih field member depth) spelled shorter shorter rest
      rw [readValue_record, Value.depth, Nat.add_le_add_iff_right, fieldsDepth_le_iff]
      exact read.map fun read => (Value.record read.1, read.2)

end

/-! ## Writing -/

theorem padded_of {holds : List Char → Prop} {text : List Char} (inside : holds text) : Padded holds text :=
  ⟨[], text, [], spaces_nil, inside, spaces_nil, by simp⟩

/-- The items behind the first are written with a comma in front of each, and the closing bracket behind them. -/
theorem exists_writeMoreItems_eq {items : List Value} (each : ∀ item ∈ items, Spells item (write item)) :
    ∃ more, SpellsMoreItems items more ∧ writeMoreItems items = more ++ [']'] := by
  induction items with
  | nil => exact ⟨[], rfl, rfl⟩
  | cons item rest ih =>
    obtain ⟨first, others⟩ := List.forall_mem_cons.1 each
    obtain ⟨more, spelled, written⟩ := ih others
    exact ⟨',' :: (write item ++ more), ⟨_, _, padded_of first, spelled, rfl⟩, by simp [writeMoreItems, written]⟩

theorem exists_writeMoreFields_eq {fields : List (String × Value)}
    (each : ∀ field ∈ fields, Spells field.2 (write field.2)) :
    ∃ more, SpellsMoreFields fields more ∧ writeMoreFields fields = more ++ ['\x7d'] := by
  induction fields with
  | nil => exact ⟨[], rfl, rfl⟩
  | cons field rest ih =>
    obtain ⟨name, value⟩ := field
    obtain ⟨first, others⟩ := List.forall_mem_cons.1 each
    obtain ⟨more, spelled, written⟩ := ih others
    refine ⟨',' :: (writeString name ++ ':' :: (write value ++ more)), ?_, by simp [writeMoreFields, written]⟩
    exact ⟨_, _, _, padded_of (spellsString_writeString name), padded_of first, spelled, rfl⟩

/-- What is written of a value of whole numbers is a text for it. -/
theorem spells_write {value : Value} (whole : value.Whole) : Spells value (write value) := by
  induction value using nested_induction with
  | null => rfl
  | bool b => cases b <;> rfl
  | number n =>
    cases n with
    | float x => cases whole
    | integer n => exact spellsNumber_writeInt whole
  | string s => exact spellsString_writeString s
  | array items ih =>
    have each := fun item member => ih item member (itemsWhole_iff.1 whole item member)
    cases items with
    | nil => exact ⟨[], spaces_nil, rfl⟩
    | cons item rest =>
      obtain ⟨first, others⟩ := List.forall_mem_cons.1 each
      obtain ⟨more, spelled, written⟩ := exists_writeMoreItems_eq others
      exact ⟨write item ++ more, ⟨_, _, padded_of first, spelled, rfl⟩, by simp [write, written]⟩
  | record fields ih =>
    have each := fun field member => ih field member (fieldsWhole_iff.1 whole field member)
    cases fields with
    | nil => exact ⟨[], spaces_nil, rfl⟩
    | cons field rest =>
      obtain ⟨name, value⟩ := field
      obtain ⟨first, others⟩ := List.forall_mem_cons.1 each
      obtain ⟨more, spelled, written⟩ := exists_writeMoreFields_eq others
      refine ⟨writeString name ++ ':' :: (write value ++ more), ?_, by simp [write, written]⟩
      exact ⟨_, _, _, padded_of (spellsString_writeString name), padded_of first, spelled, rfl⟩

end LogSieve.Json
