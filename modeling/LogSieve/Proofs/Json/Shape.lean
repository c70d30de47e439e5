import LogSieve.Proofs.Json.Reader
/-!
# The shape of a value

A value that nobody asks for has to have the shape of one and no more (`Shaped`): an escape in
it may be half of a pair, a number may be of any size, and the depth has no bound. The parts of a
list or of a record are divided by commas (`Separated`), whatever the parts are; the fields of a
record are told by the texts of their names and values (`Member`). Whatever stands for a value
has its shape (`shaped_of_spells`).
-/
namespace LogSieve.Json
open Value

/-- What may stand between quotes, whatever the escapes stand for. -/
inductive ShapedCharacters : (text : List Char) → Prop where
  | nil : ShapedCharacters []
  | plain {c : Char} {text : List Char} (quote : c ≠ '"') (backslash : c ≠ '\\') (printable : ¬ c.toNat < 0x20)
      (more : ShapedCharacters text) : ShapedCharacters (c :: text)
  | letter {letter : Char} {text : List Char} (stands : (ofEscape? letter).isSome = true)
      (more : ShapedCharacters text) : ShapedCharacters ('\\' :: letter :: text)
  | unit {c₁ c₂ c₃ c₄ : Char} {text : List Char} (digits : (unit? c₁ c₂ c₃ c₄).isSome = true)
      (more : ShapedCharacters text) : ShapedCharacters ('\\' :: 'u' :: c₁ :: c₂ :: c₃ :: c₄ :: text)

def ShapedString (text : List Char) : Prop := ∃ inside, ShapedCharacters inside ∧ text = '"' :: (inside ++ ['"'])

/-- The parts that stand behind an opening character, or behind a part if not `first`, up to the closing
    character and with it. -/
inductive Separated {α : Type} (close : Char) (holds : α → List Char → Prop) :
    (first : Bool) → List α → (text : List Char) → Prop where
  | ends {first : Bool} {gap : List Char} (spaces : Spaces gap) : Separated close holds first [] (gap ++ [close])
  | first {before inside more : List Char} {part : α} {parts : List α} (spaces : Spaces before)
      (held : holds part inside) (others : Separated close holds false parts more) :
      Separated close holds true (part :: parts) (before ++ (inside ++ more))
  | comma {gap before inside more : List Char} {part : α} {parts : List α} (gapSpaces : Spaces gap)
      (spaces : Spaces before) (held : holds part inside) (others : Separated close holds false parts more) :
      Separated close holds false (part :: parts) (gap ++ ',' :: (before ++ (inside ++ more)))

/-- A field of a record, told by the texts of its two parts. -/
structure Member where
  /-- The name with its quotes. -/
  key : List Char
  value : List Char
deriving DecidableEq, Repr

def Member.WrittenAs (member : Member) (text : List Char) : Prop :=
  ∃ gap space, Spaces gap ∧ Spaces space ∧ text = member.key ++ (gap ++ ':' :: (space ++ member.value))

inductive Shaped : (text : List Char) → Prop where
  | null : Shaped ['n', 'u', 'l', 'l']
  | true : Shaped ['t', 'r', 'u', 'e']
  | false : Shaped ['f', 'a', 'l', 's', 'e']
  | string {text : List Char} (string : ShapedString text) : Shaped text
  | number {n : Numeral} {text : List Char} (numeral : SpellsNumeral n text) : Shaped text
  | list {items : List (List Char)} {text : List Char} (each : ∀ item ∈ items, Shaped item)
      (separated : Separated ']' Eq Bool.true items text) : Shaped ('[' :: text)
  | record {members : List Member} {text : List Char} (keys : ∀ member ∈ members, ShapedString member.key)
      (values : ∀ member ∈ members, Shaped member.value)
      (separated : Separated '\x7d' Member.WrittenAs Bool.true members text) : Shaped ('\x7b' :: text)

structure Member.WellFormed (member : Member) : Prop where
  key : ShapedString member.key
  value : Shaped member.value

/-! ## Fronts and ends -/

/-- Lists or records end with the character. -/
def Closes (close : Char) : Prop := close = ']' ∨ close = '\x7d'

section
variable {close : Char}

theorem Closes.isSpace (closes : Closes close) : isSpace close = false := by
  rcases closes with rfl | rfl <;> rfl

theorem Closes.ne_comma (closes : Closes close) : ',' ≠ close := by
  rcases closes with rfl | rfl <;> decide

theorem Begins.ne_close {c : Char} {text : List Char} (begins : Begins (c :: text)) (closes : Closes close) :
    c ≠ close := by
  obtain ⟨_, _, same, _, goesOn⟩ := begins
  cases same
  rcases closes with rfl | rfl
  · exact goesOn.1
  · exact goesOn.2

/-- Behind a part, a value can end. -/
theorem Separated.ends_append {α : Type} {holds : α → List Char → Prop} {parts : List α} {text : List Char}
    (separated : Separated close holds false parts text) (closes : Closes close) (rest : List Char) :
    Ends (text ++ rest) := by
  cases separated with
  | ends spaces =>
    rw [List.append_assoc]
    refine Ends.of_spaces ?_ spaces
    intro c first
    obtain rfl := Option.some.inj first
    exact .inr (.inr closes)
  | comma gapSpaces =>
    rw [List.append_assoc]
    refine Ends.of_spaces ?_ gapSpaces
    intro c first
    exact .inr (.inl (Option.some.inj first).symm)

end

theorem begins_of_shapedString {text : List Char} (shaped : ShapedString text) : Begins text := by
  obtain ⟨_, _, rfl⟩ := shaped
  exact ⟨'"', _, rfl, rfl, by decide⟩

theorem begins_of_shaped {text : List Char} (shaped : Shaped text) : Begins text := by
  cases shaped with
  | null | true | false | list | record => exact ⟨_, _, rfl, rfl, by decide⟩
  | string string => exact begins_of_shapedString string
  | number numeral => exact begins_of_spellsNumeral numeral

theorem begins_of_writtenAs {member : Member} {text : List Char} (key : ShapedString member.key)
    (written : member.WrittenAs text) : Begins text := by
  obtain ⟨c, more, letters, solid, goesOn⟩ := begins_of_shapedString key
  obtain ⟨gap, space, _, _, rfl⟩ := written
  exact ⟨c, _, by rw [letters, List.cons_append], solid, goesOn⟩

/-! ## Spelled strings -/

theorem shapedCharacters_of_spells {s text : List Char} (spelled : SpellsCharacters s text) :
    ShapedCharacters text := by
  induction spelled with
  | nil => exact .nil
  | plain quote backslash printable _ ih => exact .plain quote backslash printable ih
  | letter stands _ ih => exact .letter (by rw [stands]; rfl) ih
  | unit digits _ _ _ ih => exact .unit (by rw [digits]; rfl) ih
  | pair digits _ moreDigits _ _ ih => exact .unit (by rw [digits]; rfl) (.unit (by rw [moreDigits]; rfl) ih)

theorem shapedString_of_spells {s : String} {text : List Char} (spelled : SpellsString s text) :
    ShapedString text := by
  obtain ⟨inside, spelled, rfl⟩ := spelled
  exact ⟨inside, shapedCharacters_of_spells spelled, rfl⟩

/-! ## Spelled values -/

section
variable {items : List Value} {fields : List (String × Value)} {gap text more : List Char}

theorem separated_moreItems (each : ∀ item ∈ items, ∀ text, Spells item text → Shaped text) (gapSpaces : Spaces gap)
    (spelled : SpellsMoreItems items more) :
    ∃ texts, (∀ text ∈ texts, Shaped text) ∧ Separated ']' Eq false texts (gap ++ (more ++ [']'])) := by
  induction items generalizing gap more with
  | nil =>
    cases spelled
    exact ⟨[], by simp, .ends gapSpaces⟩
  | cons item rest ih =>
    obtain ⟨_, more, ⟨before, inside, after, spaces, itemSpelled, afterSpaces, rfl⟩, moreSpelled, rfl⟩ := spelled
    obtain ⟨itemShaped, othersShaped⟩ := List.forall_mem_cons.1 each
    obtain ⟨texts, shaped, separated⟩ := ih othersShaped afterSpaces moreSpelled
    refine ⟨inside :: texts, List.forall_mem_cons.2 ⟨itemShaped inside itemSpelled, shaped⟩, ?_⟩
    simpa using Separated.comma gapSpaces spaces rfl separated

theorem separated_items (each : ∀ item ∈ items, ∀ text, Spells item text → Shaped text)
    (spelled : SpellsItems items text) :
    ∃ texts, (∀ text ∈ texts, Shaped text) ∧ Separated ']' Eq true texts (text ++ [']']) := by
  cases items with
  | nil => exact ⟨[], by simp, .ends spelled⟩
  | cons item rest =>
    obtain ⟨_, more, ⟨before, inside, after, spaces, itemSpelled, afterSpaces, rfl⟩, moreSpelled, rfl⟩ := spelled
    obtain ⟨itemShaped, othersShaped⟩ := List.forall_mem_cons.1 each
    obtain ⟨texts, shaped, separated⟩ := separated_moreItems othersShaped afterSpaces moreSpelled
    refine ⟨inside :: texts, List.forall_mem_cons.2 ⟨itemShaped inside itemSpelled, shaped⟩, ?_⟩
    simpa using Separated.first spaces rfl separated

theorem separated_moreFields (each : ∀ field ∈ fields, ∀ text, Spells field.2 text → Shaped text)
    (gapSpaces : Spaces gap) (spelled : SpellsMoreFields fields more) :
    ∃ members : List Member, (∀ member ∈ members, member.WellFormed) ∧
      Separated '\x7d' Member.WrittenAs false members (gap ++ (more ++ ['\x7d'])) := by
  induction fields generalizing gap more with
  | nil =>
    cases spelled
    exact ⟨[], by simp, .ends gapSpaces⟩
  | cons field rest ih =>
    obtain ⟨_, _, more, ⟨keyBefore, key, keyAfter, keySpaces, keySpelled, colonSpaces, rfl⟩,
      ⟨before, inside, after, spaces, valueSpelled, afterSpaces, rfl⟩, moreSpelled, rfl⟩ := spelled
    obtain ⟨valueShaped, othersShaped⟩ := List.forall_mem_cons.1 each
    obtain ⟨members, fine, separated⟩ := ih othersShaped afterSpaces moreSpelled
    have headFine : (Member.mk key inside).WellFormed :=
      ⟨shapedString_of_spells keySpelled, valueShaped inside valueSpelled⟩
    have written : (Member.mk key inside).WrittenAs (key ++ (keyAfter ++ ':' :: (before ++ inside))) :=
      ⟨keyAfter, before, colonSpaces, spaces, rfl⟩
    refine ⟨_, List.forall_mem_cons.2 ⟨headFine, fine⟩, ?_⟩
    simpa using Separated.comma gapSpaces keySpaces written separated

theorem separated_fields (each : ∀ field ∈ fields, ∀ text, Spells field.2 text → Shaped text)
    (spelled : SpellsFields fields text) :
    ∃ members : List Member, (∀ member ∈ members, member.WellFormed) ∧
      Separated '\x7d' Member.WrittenAs true members (text ++ ['\x7d']) := by
  cases fields with
  | nil => exact ⟨[], by simp, .ends spelled⟩
  | cons field rest =>
    obtain ⟨_, _, more, ⟨keyBefore, key, keyAfter, keySpaces, keySpelled, colonSpaces, rfl⟩,
      ⟨before, inside, after, spaces, valueSpelled, afterSpaces, rfl⟩, moreSpelled, rfl⟩ := spelled
    obtain ⟨valueShaped, othersShaped⟩ := List.forall_mem_cons.1 each
    obtain ⟨members, fine, separated⟩ := separated_moreFields othersShaped afterSpaces moreSpelled
    have headFine : (Member.mk key inside).WellFormed :=
      ⟨shapedString_of_spells keySpelled, valueShaped inside valueSpelled⟩
    have written : (Member.mk key inside).WrittenAs (key ++ (keyAfter ++ ':' :: (before ++ inside))) :=
      ⟨keyAfter, before, colonSpaces, spaces, rfl⟩
    refine ⟨_, List.forall_mem_cons.2 ⟨headFine, fine⟩, ?_⟩
    simpa using Separated.first keySpaces written separated

end

/-- Every text for a value has the shape of one. -/
theorem shaped_of_spells {value : Value} {text : List Char} (spelled : Spells value text) : Shaped text := by
  induction value using nested_induction generalizing text with
  | null =>
    cases spelled
    exact .null
  | bool b =>
    cases spelled
    cases b
    · exact .false
    · exact .true
  | number number =>
    obtain ⟨_, numeral, _⟩ := spelled
    exact .number numeral
  | string s => exact .string (shapedString_of_spells spelled)
  | array items ih =>
    obtain ⟨inside, itemsSpelled, rfl⟩ := spelled
    obtain ⟨texts, shaped, separated⟩ := separated_items (fun item member _ => ih item member) itemsSpelled
    exact .list shaped separated
  | record fields ih =>
    obtain ⟨inside, fieldsSpelled, rfl⟩ := spelled
    obtain ⟨members, fine, separated⟩ := separated_fields (fun field member _ => ih field member) fieldsSpelled
    exact .record (fun member inside => (fine member inside).key) (fun member inside => (fine member inside).value)
      separated

end LogSieve.Json
