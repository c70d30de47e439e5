import LogSieve.Proofs.Json.Reader
import LogSieve.Proofs.Outcomes
/-!
# Texts that are accepted

The converse of reading back: what a reader takes from the front of a text is a text of the
grammar for what it gives, and the rest is what follows. The parts come first: strings, then
numerals, then the items and fields between values. `of_readValue` is the induction on the depth
over which a value may be nested.
-/
namespace LogSieve.Json
open Value

section
variable {text rest : List Char}

/-! ## Strings -/

theorem consRead_eq_ok_iff {c : Char} {read : Except Fault (List Char × List Char)} {s : List Char} :
    consRead c read = .ok (s, rest) ↔ ∃ more, read = .ok (more, rest) ∧ s = c :: more := by
  rw [consRead, map_eq_ok_iff]
  constructor
  · rintro ⟨⟨more, _⟩, front, result⟩
    cases result
    exact ⟨more, front, rfl⟩
  · rintro ⟨more, front, rfl⟩
    exact ⟨(more, rest), front, rfl⟩

theorem spelled_of_readString {s : List Char} (read : readString text = .ok (s, rest)) :
    ∃ inside, SpellsCharacters s inside ∧ text = inside ++ '"' :: rest := by
  fun_induction readString text generalizing s rest with
  | case2 more =>
    cases read
    exact ⟨[], .nil, rfl⟩
  | case7 c₁ c₂ c₃ c₄ high digits notLow isHigh d₁ d₂ d₃ d₄ more low moreDigits isLow ih =>
    obtain ⟨s, front, rfl⟩ := consRead_eq_ok_iff.1 read
    obtain ⟨inside, spelled, rfl⟩ := ih front
    exact ⟨_, .pair digits isHigh moreDigits isLow spelled, rfl⟩
  | case11 c₁ c₂ c₃ c₄ more unit digits notLow notHigh ih =>
    obtain ⟨s, front, rfl⟩ := consRead_eq_ok_iff.1 read
    obtain ⟨inside, spelled, rfl⟩ := ih front
    exact ⟨_, .unit digits notHigh notLow spelled, rfl⟩
  | case13 letter more _ _ c stands ih =>
    obtain ⟨s, front, rfl⟩ := consRead_eq_ok_iff.1 read
    obtain ⟨inside, spelled, rfl⟩ := ih front
    exact ⟨_, .letter stands spelled, rfl⟩
  | case16 c more quote ending unit cut letter printable ih =>
    obtain ⟨s, front, rfl⟩ := consRead_eq_ok_iff.1 read
    obtain ⟨inside, spelled, rfl⟩ := ih front
    have backslash : c ≠ '\\' := by
      intro same
      -- The rest is not empty, so the backslash and what follows it were an escape.
      cases inside with
      | nil => exact letter _ _ same rfl
      | cons d others => exact letter _ _ same rfl
    exact ⟨_, .plain quote backslash printable spelled, rfl⟩
  | _ => cases read

theorem spelled_of_readKey {name : Option String} (read : readKey text = .ok (name, rest)) :
    ∃ s key, name = some s ∧ SpellsString s key ∧ text = key ++ rest := by
  rw [readKey.eq_def] at read
  split at read
  · obtain ⟨⟨s, _⟩, front, result⟩ := bind_eq_ok_iff.1 read
    cases result
    obtain ⟨inside, spelled, rfl⟩ := spelled_of_readString front
    exact ⟨_, _, rfl, ⟨inside, by rwa [String.toList_ofList], rfl⟩, by simp⟩
  · cases read

/-! ## Numbers -/

section
variable {atEnd : Cause} {digits : List Char}

theorem digits_of_readDigits (read : readDigits atEnd text = .ok (digits, rest)) :
    Digits digits ∧ text = digits ++ rest := by
  have parts : text = text.takeWhile isDigit ++ text.dropWhile isDigit := List.takeWhile_append_dropWhile.symm
  rw [readDigits, spanDigits] at read
  split at read
  · cases read
  · rename_i taken left some spanned
    cases read
    obtain ⟨rfl, rfl⟩ := Prod.mk.inj spanned
    exact ⟨⟨some, List.all_eq_true.1 List.all_takeWhile⟩, parts⟩

theorem wholeDigits_of_readWhole (read : readWhole atEnd text = .ok (digits, rest)) :
    WholeDigits digits ∧ text = digits ++ rest := by
  rw [readWhole.eq_def] at read
  split at read
  · split at read
    · cases read
    · cases read
      exact ⟨⟨⟨by simp, by simp [isDigit]⟩, fun _ => rfl⟩, rfl⟩
  · rename_i noZero
    obtain ⟨some, rfl⟩ := digits_of_readDigits read
    refine ⟨⟨some, fun zero => ?_⟩, rfl⟩
    cases digits with
    | nil => cases zero
    | cons c more =>
      cases zero
      exact absurd rfl (noZero (more ++ rest))

theorem spelled_of_readFraction (read : readFraction atEnd text = .ok (digits, rest)) :
    ∃ fraction, SpellsFraction digits fraction ∧ text = fraction ++ rest := by
  rw [readFraction.eq_def] at read
  split at read
  · obtain ⟨some, rfl⟩ := digits_of_readDigits read
    exact ⟨_, .point some, rfl⟩
  · cases read
    exact ⟨_, .none, rfl⟩

theorem spelled_of_readSign {negative : Bool} (read : readSign text = (negative, rest)) :
    ∃ sign, SpellsSign negative sign ∧ text = sign ++ rest := by
  rw [readSign.eq_def] at read
  split at read
  · cases read
    exact ⟨_, .plus, rfl⟩
  · cases read
    exact ⟨_, .minus, rfl⟩
  · cases read
    exact ⟨_, .none, rfl⟩

theorem spelled_of_readExponent {exponent : Option Exponent}
    (read : readExponent atEnd text = .ok (exponent, rest)) :
    ∃ part, SpellsExponent exponent part ∧ text = part ++ rest := by
  rw [readExponent.eq_def] at read
  split at read
  · cases read
    exact ⟨_, .none, rfl⟩
  split at read
  · rename_i e more letter
    cases signed : readSign more with
    | mk negative behind =>
      rw [signed] at read
      obtain ⟨⟨digits, _⟩, front, result⟩ := bind_eq_ok_iff.1 read
      cases result
      obtain ⟨sign, signs, rfl⟩ := spelled_of_readSign signed
      obtain ⟨some, rfl⟩ := digits_of_readDigits front
      exact ⟨_, .e letter signs some, by simp⟩
  · cases read
    exact ⟨_, .none, rfl⟩

theorem spelled_of_readUnsigned {negative : Bool} {n : Numeral}
    (read : readUnsigned atEnd negative text = .ok (n, rest)) :
    n.negative = negative ∧ ∃ unsigned, SpellsUnsigned n unsigned ∧ text = unsigned ++ rest := by
  obtain ⟨⟨whole, _⟩, wholeRead, read⟩ := bind_eq_ok_iff.1 read
  obtain ⟨⟨digits, _⟩, fractionRead, read⟩ := bind_eq_ok_iff.1 read
  obtain ⟨⟨exponent, _⟩, exponentRead, result⟩ := bind_eq_ok_iff.1 read
  cases result
  obtain ⟨some, rfl⟩ := wholeDigits_of_readWhole wholeRead
  obtain ⟨fraction, fractionSpelled, rfl⟩ := spelled_of_readFraction fractionRead
  obtain ⟨part, exponentSpelled, rfl⟩ := spelled_of_readExponent exponentRead
  exact ⟨rfl, _, ⟨fraction, part, some, fractionSpelled, exponentSpelled, rfl⟩, by simp⟩

theorem spelled_of_readNumeral {n : Numeral} (read : readNumeral atEnd text = .ok (n, rest)) :
    ∃ inside, SpellsNumeral n inside ∧ text = inside ++ rest := by
  rw [readNumeral.eq_def] at read
  split at read
  · obtain ⟨negative, unsigned, spelled, rfl⟩ := spelled_of_readUnsigned read
    exact ⟨_, ⟨unsigned, spelled, rfl⟩, by simp [negative]⟩
  · obtain ⟨negative, unsigned, spelled, rfl⟩ := spelled_of_readUnsigned read
    exact ⟨_, ⟨unsigned, spelled, rfl⟩, by simp [negative]⟩

end

theorem spelled_of_readNumber {number : Number} (read : readNumber text = .ok (number, rest)) :
    ∃ inside, SpellsNumber number inside ∧ text = inside ++ rest := by
  obtain ⟨⟨n, behind⟩, front, found⟩ := bind_eq_ok_iff.1 read
  obtain ⟨inside, spelled, rfl⟩ := spelled_of_readNumeral front
  dsimp only at found
  split at found
  · rename_i value
    cases found
    exact ⟨inside, ⟨n, spelled, value⟩, rfl⟩
  · cases found

/-! ## Between values -/

theorem eq_append_skipSpace (text : List Char) : ∃ before, Spaces before ∧ text = before ++ skipSpace text :=
  ⟨text.takeWhile isSpace, List.all_eq_true.1 List.all_takeWhile, List.takeWhile_append_dropWhile.symm⟩

theorem Spaces.append {before more : List Char} (spaces : Spaces before) (moreSpaces : Spaces more) :
    Spaces (before ++ more) := List.forall_mem_append.2 ⟨spaces, moreSpaces⟩

theorem eq_of_afterWord {word : List Char} (read : afterWord word text = .ok rest) : text = word ++ rest := by
  fun_induction afterWord word text with
  | case1 =>
    cases read
    rfl
  | case3 w word more ih => rw [ih read, List.cons_append]
  | _ => cases read

/-- Either the bracket was reached, or an item follows: the first one, or another behind a comma. -/
theorem nextItem_cases {first goesOn : Bool} (read : nextItem first text = .ok (goesOn, rest)) :
    ∃ gap, Spaces gap ∧
      ((goesOn = false ∧ text = gap ++ ']' :: rest) ∨
        (goesOn = true ∧
          ((first = true ∧ text = gap ++ rest) ∨
            (first = false ∧ ∃ space, Spaces space ∧ text = gap ++ ',' :: (space ++ rest))))) := by
  obtain ⟨gap, spaces, parts⟩ := eq_append_skipSpace text
  refine ⟨gap, spaces, ?_⟩
  rw [nextItem] at read
  split at read
  · cases read
  rename_i c more front
  rw [front] at parts
  split at read
  · rename_i bracket
    cases read
    exact .inl ⟨rfl, bracket ▸ parts⟩
  split at read
  · rename_i isFirst
    cases read
    exact .inr ⟨rfl, .inl ⟨isFirst, parts⟩⟩
  split at read
  · rename_i notFirst comma
    obtain ⟨space, moreSpaces, moreParts⟩ := eq_append_skipSpace more
    split at read
    · cases read
    · rename_i d others behind
      split at read
      · cases read
      · cases read
        rw [behind] at moreParts
        rw [comma, moreParts] at parts
        exact .inr ⟨rfl, .inr ⟨Bool.eq_false_of_not_eq_true notFirst, space, moreSpaces, parts⟩⟩
  · cases read

/-- Either the brace was reached, or a key follows: the first one, or another behind a comma. -/
theorem nextKey_cases {first : Bool} {name : Option String} (read : nextKey first text = .ok (name, rest)) :
    ∃ gap, Spaces gap ∧
      ((name = none ∧ text = gap ++ '\x7d' :: rest) ∨
        ∃ s key, name = some s ∧ SpellsString s key ∧
          ((first = true ∧ text = gap ++ (key ++ rest)) ∨
            (first = false ∧ ∃ space, Spaces space ∧ text = gap ++ ',' :: (space ++ (key ++ rest))))) := by
  obtain ⟨gap, spaces, parts⟩ := eq_append_skipSpace text
  refine ⟨gap, spaces, ?_⟩
  rw [nextKey] at read
  split at read
  · cases read
  rename_i c more front
  rw [front] at parts
  split at read
  · rename_i brace
    cases read
    exact .inl ⟨rfl, brace ▸ parts⟩
  split at read
  · rename_i isFirst
    obtain ⟨s, key, rfl, spelled, begins⟩ := spelled_of_readKey read
    exact .inr ⟨s, key, rfl, spelled, .inl ⟨isFirst, begins ▸ parts⟩⟩
  split at read
  · rename_i notFirst comma
    obtain ⟨space, moreSpaces, moreParts⟩ := eq_append_skipSpace more
    split at read
    · cases read
    · rename_i d others behind
      split at read
      · cases read
      · obtain ⟨s, key, rfl, spelled, begins⟩ := spelled_of_readKey read
        rw [behind, begins] at moreParts
        rw [comma, moreParts] at parts
        exact .inr ⟨s, key, rfl, spelled, .inr ⟨Bool.eq_false_of_not_eq_true notFirst, space, moreSpaces, parts⟩⟩
  · cases read

theorem eq_of_afterColon (read : afterColon text = .ok rest) : ∃ gap, Spaces gap ∧ text = gap ++ ':' :: rest := by
  obtain ⟨gap, spaces, parts⟩ := eq_append_skipSpace text
  rw [afterColon] at read
  split at read
  · cases read
  rename_i c more front
  split at read
  · rename_i colon
    cases read
    rw [front, colon] at parts
    exact ⟨gap, spaces, parts⟩
  · cases read

end

/-! ## Values -/

/-- A value no deeper than `limit` stands at the front of the text, behind white space. -/
structure Heads (limit : Nat) (text : List Char) (value : Value) (rest : List Char) : Prop where
  shallow : value.depth ≤ limit
  spelled : ∃ before inside, Spaces before ∧ Spells value inside ∧ text = before ++ (inside ++ rest)

section
variable {reader : Reader Value} {bound limit : Nat} {text rest : List Char}

/-- Items are taken from a text for them: from behind the bracket, or with a comma in front from behind an item. -/
theorem of_readItems (each : ∀ {text value rest}, reader text = .ok (value, rest) → Heads limit text value rest)
    {first : Bool} {items : List Value} (read : readItems reader bound first text = .ok (items, rest)) :
    (∀ item ∈ items, item.depth ≤ limit) ∧
      if first then ∃ inside, SpellsItems items inside ∧ text = inside ++ ']' :: rest
      else ∃ gap more, Spaces gap ∧ SpellsMoreItems items more ∧ text = gap ++ (more ++ ']' :: rest) := by
  induction bound generalizing first text items with
  | zero => cases read
  | succ bound ih =>
    cases next : nextItem first text with
    | error fault =>
      rw [readItems, next] at read
      cases read
    | ok front =>
      obtain ⟨goesOn, behind⟩ := front
      obtain ⟨gap, gapSpaces, ⟨rfl, ended⟩ | ⟨rfl, begins⟩⟩ := nextItem_cases next
      · rw [readItems, next] at read
        cases read
        refine ⟨by simp, ?_⟩
        cases first with
        | true => exact ⟨gap, gapSpaces, ended⟩
        | false => exact ⟨gap, [], gapSpaces, rfl, ended⟩
      · rw [readItems_eq next] at read
        obtain ⟨⟨head, _⟩, headRead, others⟩ := bind_eq_ok_iff.1 read
        obtain ⟨⟨tail, _⟩, tailRead, result⟩ := map_eq_ok_iff.1 others
        cases result
        obtain ⟨headShallow, before, inside, spaces, headSpelled, rfl⟩ := each headRead
        obtain ⟨tailShallow, after, more, afterSpaces, tailSpelled, rfl⟩ := ih tailRead
        refine ⟨List.forall_mem_cons.2 ⟨headShallow, tailShallow⟩, ?_⟩
        rcases begins with ⟨rfl, rfl⟩ | ⟨rfl, space, moreSpaces, rfl⟩
        · have padded : Padded (Spells head) ((gap ++ before) ++ (inside ++ after)) :=
            ⟨_, _, _, gapSpaces.append spaces, headSpelled, afterSpaces, rfl⟩
          exact ⟨_, ⟨_, more, padded, tailSpelled, rfl⟩, by simp⟩
        · have padded : Padded (Spells head) ((space ++ before) ++ (inside ++ after)) :=
            ⟨_, _, _, moreSpaces.append spaces, headSpelled, afterSpaces, rfl⟩
          exact ⟨gap, _, gapSpaces, ⟨_, more, padded, tailSpelled, rfl⟩, by simp⟩

/-- Fields are taken from a text for them: from behind the brace, or with a comma in front from behind a field. -/
theorem of_readFields (each : ∀ {text value rest}, reader text = .ok (value, rest) → Heads limit text value rest)
    {first : Bool} {fields : List (String × Value)}
    (read : readFields reader bound first text = .ok (fields, rest)) :
    (∀ field ∈ fields, field.2.depth ≤ limit) ∧
      if first then ∃ inside, SpellsFields fields inside ∧ text = inside ++ '\x7d' :: rest
      else ∃ gap more, Spaces gap ∧ SpellsMoreFields fields more ∧ text = gap ++ (more ++ '\x7d' :: rest) := by
  induction bound generalizing first text fields with
  | zero => cases read
  | succ bound ih =>
    cases next : nextKey first text with
    | error fault =>
      rw [readFields, next] at read
      cases read
    | ok front =>
      obtain ⟨found, behind⟩ := front
      obtain ⟨gap, gapSpaces, ⟨rfl, ended⟩ | ⟨name, key, rfl, keySpelled, begins⟩⟩ := nextKey_cases next
      · rw [readFields, next] at read
        cases read
        refine ⟨by simp, ?_⟩
        cases first with
        | true => exact ⟨gap, gapSpaces, ended⟩
        | false => exact ⟨gap, [], gapSpaces, rfl, ended⟩
      cases colon : afterColon behind with
      | error fault =>
        simp only [readFields, next, colon, bind, Except.bind] at read
        cases read
      | ok valueText =>
        rw [readFields_eq next colon] at read
        obtain ⟨⟨head, _⟩, headRead, others⟩ := bind_eq_ok_iff.1 read
        obtain ⟨⟨tail, _⟩, tailRead, result⟩ := map_eq_ok_iff.1 others
        cases result
        obtain ⟨headShallow, before, inside, spaces, headSpelled, rfl⟩ := each headRead
        obtain ⟨tailShallow, after, more, afterSpaces, tailSpelled, rfl⟩ := ih tailRead
        obtain ⟨colonGap, colonSpaces, rfl⟩ := eq_of_afterColon colon
        have padded : Padded (Spells head) (before ++ (inside ++ after)) :=
          ⟨_, _, _, spaces, headSpelled, afterSpaces, rfl⟩
        refine ⟨List.forall_mem_cons.2 ⟨headShallow, tailShallow⟩, ?_⟩
        rcases begins with ⟨rfl, rfl⟩ | ⟨rfl, space, moreSpaces, rfl⟩
        · have keyPadded : Padded (SpellsString name) (gap ++ (key ++ colonGap)) :=
            ⟨_, _, _, gapSpaces, keySpelled, colonSpaces, rfl⟩
          exact ⟨_, ⟨_, _, more, keyPadded, padded, tailSpelled, rfl⟩, by simp⟩
        · have keyPadded : Padded (SpellsString name) (space ++ (key ++ colonGap)) :=
            ⟨_, _, _, moreSpaces, keySpelled, colonSpaces, rfl⟩
          exact ⟨gap, _, gapSpaces, ⟨_, _, more, keyPadded, padded, tailSpelled, rfl⟩, by simp⟩

end

section
variable {bound depth : Nat} {text rest : List Char} {value : Value}

theorem eq_of_word {word : List Char} {named : Value}
    (read : (afterWord word text).map (named, ·) = .ok (value, rest)) : value = named ∧ text = word ++ rest := by
  obtain ⟨_, wordRead, result⟩ := map_eq_ok_iff.1 read
  cases result
  exact ⟨rfl, eq_of_afterWord wordRead⟩

/-- A value that was read is no list and no record, or its parts were read by a reader that goes one less deep. -/
theorem readValue_cases (read : readValue bound depth text = .ok (value, rest)) :
    ∃ before front, Spaces before ∧ text = before ++ front ∧
      ((value.depth = 0 ∧ ∃ inside, Spells value inside ∧ front = inside ++ rest) ∨
        (∃ inner items more, depth = inner + 1 ∧ value = .array items ∧ front = '[' :: more ∧
          readItems (readValue bound inner) bound true more = .ok (items, rest)) ∨
        ∃ inner fields more, depth = inner + 1 ∧ value = .record fields ∧ front = '\x7b' :: more ∧
          readFields (readValue bound inner) bound true more = .ok (fields, rest)) := by
  obtain ⟨before, spaces, parts⟩ := eq_append_skipSpace text
  refine ⟨before, skipSpace text, spaces, parts, ?_⟩
  rw [readValue.eq_def] at read
  split at read
  · cases read
  rename_i c more front
  rw [front]
  -- One branch for each first character, in the order in which the reader asks.
  split at read
  · rename_i first
    obtain ⟨rfl, rfl⟩ := eq_of_word read
    exact .inl ⟨rfl, _, rfl, by rw [first]; rfl⟩
  split at read
  · rename_i first
    obtain ⟨rfl, rfl⟩ := eq_of_word read
    exact .inl ⟨rfl, _, rfl, by rw [first]; rfl⟩
  split at read
  · rename_i first
    obtain ⟨rfl, rfl⟩ := eq_of_word read
    exact .inl ⟨rfl, _, rfl, by rw [first]; rfl⟩
  split at read
  · rename_i quote
    obtain ⟨⟨s, _⟩, string, result⟩ := map_eq_ok_iff.1 read
    cases result
    obtain ⟨inside, spelled, rfl⟩ := spelled_of_readString string
    exact .inl ⟨rfl, _, ⟨inside, by rwa [String.toList_ofList], rfl⟩, by simp [quote]⟩
  split at read
  · obtain ⟨⟨n, _⟩, number, result⟩ := map_eq_ok_iff.1 read
    cases result
    exact .inl ⟨rfl, spelled_of_readNumber number⟩
  split at read
  · rename_i bracket
    cases depth with
    | zero => cases read
    | succ inner =>
      obtain ⟨⟨items, _⟩, itemsRead, result⟩ := map_eq_ok_iff.1 read
      cases result
      exact .inr (.inl ⟨inner, items, more, rfl, rfl, by rw [bracket], itemsRead⟩)
  split at read
  · rename_i brace
    cases depth with
    | zero => cases read
    | succ inner =>
      obtain ⟨⟨fields, _⟩, fieldsRead, result⟩ := map_eq_ok_iff.1 read
      cases result
      exact .inr (.inr ⟨inner, fields, more, rfl, rfl, by rw [brace], fieldsRead⟩)
  · cases read

/-- A reader takes a text for the value that it gives, and none that is nested deeper than it goes. -/
theorem of_readValue (read : readValue bound depth text = .ok (value, rest)) : Heads depth text value rest := by
  induction depth generalizing text value rest with
  | zero =>
    obtain ⟨before, _, spaces, rfl, ⟨leaf, inside, spelled, rfl⟩ | ⟨_, _, _, impossible, _⟩ |
      ⟨_, _, _, impossible, _⟩⟩ := readValue_cases read
    · exact ⟨leaf.le, before, inside, spaces, spelled, rfl⟩
    · cases impossible
    · cases impossible
  | succ depth ih =>
    obtain ⟨before, _, spaces, rfl, ⟨leaf, inside, spelled, rfl⟩ | ⟨inner, items, more, deeper, rfl, rfl, itemsRead⟩ |
      ⟨inner, fields, more, deeper, rfl, rfl, fieldsRead⟩⟩ := readValue_cases read
    · exact ⟨leaf.trans_le (Nat.zero_le _), before, inside, spaces, spelled, rfl⟩
    · cases deeper
      obtain ⟨shallow, inside, spelled, rfl⟩ := of_readItems ih itemsRead
      refine ⟨?_, before, _, spaces, ⟨inside, spelled, rfl⟩, by simp⟩
      rwa [Value.depth, Nat.add_le_add_iff_right, itemsDepth_le_iff]
    · cases deeper
      obtain ⟨shallow, inside, spelled, rfl⟩ := of_readFields ih fieldsRead
      refine ⟨?_, before, _, spaces, ⟨inside, spelled, rfl⟩, by simp⟩
      rwa [Value.depth, Nat.add_le_add_iff_right, fieldsDepth_le_iff]

end

end LogSieve.Json
