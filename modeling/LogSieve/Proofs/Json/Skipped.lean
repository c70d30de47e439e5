import LogSieve.Json.Skipped
import LogSieve.Proofs.Json.Accepted
import LogSieve.Proofs.Json.Shape
/-!
# Values that are run over

Running over a text takes from its front what has the shape of a value, and nothing else
(`skips_shaped`, `shaped_of_skipValue`). The items of a list and the fields of a record are run
over in one way (`skipParts`): only the closing character, the faults and the parts differ.
-/
namespace LogSieve.Json

/-! ## Strings -/

section
variable {text inside rest : List Char}

theorem skipString_shaped (shaped : ShapedCharacters inside) (rest : List Char) :
    skipString (inside ++ '"' :: rest) = .ok rest := by
  induction shaped with
  | nil => rfl
  | plain quote backslash printable more ih =>
    rw [List.cons_append, skipString, if_neg printable, ih]
    all_goals simp [quote, backslash]
  | @letter letter text stands more ih =>
    have notUnit : letter ≠ 'u' := by
      rintro rfl
      cases stands
    rw [List.cons_append, List.cons_append, skipString, if_pos stands, ih]
    all_goals simp [notUnit]
  | unit digits more ih =>
    simp only [List.cons_append]
    rw [skipString, if_pos digits, ih]

theorem shaped_of_skipString (skipped : skipString text = .ok rest) :
    ∃ inside, ShapedCharacters inside ∧ text = inside ++ '"' :: rest := by
  fun_induction skipString text with
  | case2 more =>
    cases skipped
    exact ⟨[], .nil, rfl⟩
  | case4 c₁ c₂ c₃ c₄ more digits ih =>
    obtain ⟨inside, shaped, rfl⟩ := ih skipped
    exact ⟨_, .unit digits shaped, rfl⟩
  | case7 letter more _ _ stands ih =>
    obtain ⟨inside, shaped, rfl⟩ := ih skipped
    exact ⟨_, .letter stands shaped, rfl⟩
  | case10 c more quote ending unit cut letter printable ih =>
    obtain ⟨inside, shaped, rfl⟩ := ih skipped
    have backslash : c ≠ '\\' := by
      intro same
      -- The rest is not empty, so the backslash and what follows it were an escape.
      cases inside with
      | nil => exact letter _ _ same rfl
      | cons d others => exact letter _ _ same rfl
    exact ⟨_, .plain quote backslash printable shaped, rfl⟩
  | _ => cases skipped

end

/-! ## Parts -/

/-- The text is run over wherever a value can end, with the white space in front of it. -/
def Skips (skipper : List Char → Except Fault (List Char)) (text : List Char) : Prop :=
  ∀ before rest, Spaces before → Ends rest → skipper (before ++ (text ++ rest)) = .ok rest

/-- The text after parts with a comma between each two, up to the closing character. -/
def skipParts (close : Char) (ended noComma : Cause) (part : List Char → Except Fault (List Char)) (bound : Nat)
    (first : Bool) (text : List Char) : Except Fault (List Char) :=
  match bound with
  | 0 => .error (.before ended text)
  | bound + 1 =>
    match skipSpace text with
    | [] => .error (.before ended [])
    | c :: rest =>
      if c = close then .ok rest
      else if first then part (c :: rest) >>= skipParts close ended noComma part bound false
      else if c = ',' then part rest >>= skipParts close ended noComma part bound false
      else .error (.at noComma (c :: rest))

theorem skipItems_eq (item : List Char → Except Fault (List Char)) :
    skipItems item = skipParts ']' .endInList .noCommaInList item := by
  funext bound
  induction bound with
  | zero => rfl
  | succ bound ih =>
    funext first text
    rw [skipItems.eq_def, skipParts.eq_def]
    cases skipSpace text with
    | nil => rfl
    | cons c rest => simp only [ih]

theorem skipFields_eq (value : List Char → Except Fault (List Char)) :
    skipFields value =
      skipParts '\x7d' .endInObject .noCommaInObject (fun text => skipKey text >>= value) := by
  funext bound
  induction bound with
  | zero => rfl
  | succ bound ih =>
    funext first text
    rw [skipFields.eq_def, skipParts.eq_def]
    cases skipSpace text with
    | nil => rfl
    | cons c rest => simp only [ih]

section
variable {α : Type} {holds : α → List Char → Prop} {parts : List α} {close : Char} {ended noComma : Cause}
  {part : List Char → Except Fault (List Char)} {bound limit : Nat} {first : Bool} {gap text rest : List Char}

theorem skipParts_end (closes : Closes close) (spaces : Spaces gap) (first : Bool) (rest : List Char) :
    skipParts close ended noComma part (bound + 1) first (gap ++ close :: rest) = .ok rest := by
  rw [skipParts, skipSpace_append spaces, skipSpace_cons closes.isSpace]
  simp

theorem skipParts_comma (closes : Closes close) (spaces : Spaces gap) (rest : List Char) :
    skipParts close ended noComma part (bound + 1) false (gap ++ ',' :: rest) =
      part rest >>= skipParts close ended noComma part bound false := by
  rw [skipParts, skipSpace_append spaces, skipSpace_cons rfl]
  simp [closes.ne_comma]

theorem skipParts_first (closes : Closes close) (spaces : Spaces gap) (begins : Begins text) (rest : List Char) :
    skipParts close ended noComma part (bound + 1) true (gap ++ (text ++ rest)) =
      part (text ++ rest) >>= skipParts close ended noComma part bound false := by
  have front := skipSpace_of_begins begins rest
  cases text with
  | nil =>
    obtain ⟨_, _, impossible, _⟩ := begins
    cases impossible
  | cons c more =>
    rw [skipParts, skipSpace_append spaces, front]
    simp [begins.ne_close closes]

/-- Parts are run over if each of them is. -/
theorem skipParts_separated (closes : Closes close)
    (begins : ∀ one ∈ parts, ∀ inside, holds one inside → Begins inside)
    (skips : ∀ one ∈ parts, ∀ inside, holds one inside → inside.length ≤ limit → Skips part inside)
    (separated : Separated close holds first parts text) (short : text.length ≤ bound) (within : text.length ≤ limit)
    (rest : List Char) :
    skipParts close ended noComma part bound first (text ++ rest) = .ok rest := by
  -- Every round takes a character at least, so the length of the text bounds the rounds.
  induction separated generalizing bound with
  | ends spaces =>
    simp only [List.length_append, List.length_cons] at short
    obtain ⟨bound, rfl⟩ : ∃ inner, bound = inner + 1 := ⟨bound - 1, by omega⟩
    rw [List.append_assoc]
    exact skipParts_end closes spaces _ rest
  | @first before inside more one parts spaces held others ih =>
    obtain ⟨oneBegins, othersBegin⟩ := List.forall_mem_cons.1 begins
    obtain ⟨oneSkips, othersSkip⟩ := List.forall_mem_cons.1 skips
    have positive : 0 < inside.length := by
      obtain ⟨c, letters, rfl, _⟩ := oneBegins inside held
      exact Nat.succ_pos _
    simp only [List.length_append] at short within
    obtain ⟨bound, rfl⟩ : ∃ inner, bound = inner + 1 := ⟨bound - 1, by omega⟩
    have front := oneSkips inside held (by omega) [] _ spaces_nil (others.ends_append closes rest)
    rw [List.nil_append] at front
    simp only [List.append_assoc]
    rw [skipParts_first closes spaces (oneBegins inside held), front]
    exact ih othersBegin othersSkip (by omega) (by omega)
  | @comma gap before inside more one parts gapSpaces spaces held others ih =>
    obtain ⟨_, othersBegin⟩ := List.forall_mem_cons.1 begins
    obtain ⟨oneSkips, othersSkip⟩ := List.forall_mem_cons.1 skips
    simp only [List.length_append, List.length_cons] at short within
    obtain ⟨bound, rfl⟩ : ∃ inner, bound = inner + 1 := ⟨bound - 1, by omega⟩
    have front := oneSkips inside held (by omega) before _ spaces (others.ends_append closes rest)
    simp only [List.append_assoc, List.cons_append]
    rw [skipParts_comma closes gapSpaces, front]
    exact ih othersBegin othersSkip (by omega) (by omega)

/-- Either the closing character was reached, or a part was run over, the first one or another behind a comma. -/
theorem skipParts_cases (skipped : skipParts close ended noComma part bound first text = .ok rest) :
    ∃ gap, Spaces gap ∧
      (text = gap ++ close :: rest ∨
        ∃ inner behind more, bound = inner + 1 ∧ part behind = .ok more ∧
          skipParts close ended noComma part inner false more = .ok rest ∧
          ((first = true ∧ text = gap ++ behind) ∨ (first = false ∧ text = gap ++ ',' :: behind))) := by
  obtain ⟨gap, spaces, parts⟩ := eq_append_skipSpace text
  refine ⟨gap, spaces, ?_⟩
  cases bound with
  | zero => cases skipped
  | succ inner =>
    rw [skipParts] at skipped
    split at skipped
    · cases skipped
    rename_i c behind front
    rw [front] at parts
    split at skipped
    · rename_i closed
      cases skipped
      exact .inl (closed ▸ parts)
    split at skipped
    · rename_i isFirst
      obtain ⟨more, one, others⟩ := bind_eq_ok_iff.1 skipped
      exact .inr ⟨inner, _, more, rfl, one, others, .inl ⟨isFirst, parts⟩⟩
    split at skipped
    · rename_i notFirst comma
      obtain ⟨more, one, others⟩ := bind_eq_ok_iff.1 skipped
      rw [comma] at parts
      exact .inr ⟨inner, _, more, rfl, one, others, .inr ⟨Bool.eq_false_of_not_eq_true notFirst, parts⟩⟩
    · cases skipped

/-- What is run over is parts, if each part that is run over is one. -/
theorem of_skipParts {good : α → Prop}
    (each : ∀ {text rest}, part text = .ok rest →
      ∃ before one inside, Spaces before ∧ good one ∧ holds one inside ∧ text = before ++ (inside ++ rest))
    (skipped : skipParts close ended noComma part bound first text = .ok rest) :
    ∃ parts inside, (∀ one ∈ parts, good one) ∧ Separated close holds first parts inside ∧ text = inside ++ rest := by
  induction bound generalizing first text with
  | zero => cases skipped
  | succ bound ih =>
    obtain ⟨gap, gapSpaces, rfl | ⟨inner, behind, tail, deeper, one, others, begins⟩⟩ := skipParts_cases skipped
    · exact ⟨[], _, by simp, .ends gapSpaces, by simp⟩
    · cases deeper
      obtain ⟨before, head, inside, spaces, fine, held, rfl⟩ := each one
      obtain ⟨heads, more, othersFine, separated, rfl⟩ := ih others
      have allFine := List.forall_mem_cons.2 ⟨fine, othersFine⟩
      rcases begins with ⟨rfl, rfl⟩ | ⟨rfl, rfl⟩
      · exact ⟨_, _, allFine, .first (gapSpaces.append spaces) held separated, by simp⟩
      · exact ⟨_, _, allFine, .comma gapSpaces spaces held separated, by simp⟩

end

/-! ## Values -/

theorem skipKey_shaped {before key gap : List Char} (spaces : Spaces before) (shaped : ShapedString key)
    (gapSpaces : Spaces gap) (rest : List Char) :
    skipKey (before ++ (key ++ (gap ++ ':' :: rest))) = .ok rest := by
  obtain ⟨inside, characters, rfl⟩ := shaped
  rw [skipKey, skipSpace_append spaces, List.cons_append, skipSpace_cons rfl]
  simp only [List.append_assoc, List.singleton_append, if_true, skipString_shaped characters, bind, Except.bind]
  exact afterColon_spaces gapSpaces rest

section
variable {bound depth : Nat} {text rest : List Char}

theorem skipValue_spaces {before : List Char} (spaces : Spaces before) (text : List Char) :
    skipValue bound depth (before ++ text) = skipValue bound depth text := by
  rw [skipValue.eq_def, skipSpace_append spaces, ← skipValue.eq_def]

theorem skipValue_string (rest : List Char) : skipValue bound depth ('"' :: rest) = skipString rest := by
  cases depth <;> rfl

theorem skipValue_list (rest : List Char) :
    skipValue bound (depth + 1) ('[' :: rest) =
      skipParts ']' .endInList .noCommaInList (skipValue bound depth) bound true rest := by
  rw [← skipItems_eq]
  rfl

theorem skipValue_record (rest : List Char) :
    skipValue bound (depth + 1) ('\x7b' :: rest) =
      skipParts '\x7d' .endInObject .noCommaInObject (fun text => skipKey text >>= skipValue bound depth) bound
        true rest := by
  rw [← skipFields_eq]
  rfl

theorem skipValue_number {c : Char} (numeral : c = '-' ∨ isDigit c = true) (rest : List Char) :
    skipValue bound depth (c :: rest) = skipNumeral (c :: rest) := by
  have notNull : c ≠ 'n' := ne_of_numeral numeral rfl (by decide)
  have notTrue : c ≠ 't' := ne_of_numeral numeral rfl (by decide)
  have notFalse : c ≠ 'f' := ne_of_numeral numeral rfl (by decide)
  have notString : c ≠ '"' := ne_of_numeral numeral rfl (by decide)
  rw [skipValue.eq_def, skipSpace_cons (isSpace_of_numeral numeral)]
  simp only [notNull, notTrue, notFalse, notString, numeral, if_true, if_false]

/-- Every text of the shape of a value is run over where a value can end, by a skipper with room for it. -/
theorem skips_shaped (shaped : Shaped text) (room : text.length < depth) (short : text.length < bound) :
    Skips (skipValue bound depth) text := by
  intro before rest spaces ends
  rw [skipValue_spaces spaces]
  induction shaped generalizing depth before rest with
  | null => cases depth <;> rfl
  | true => cases depth <;> rfl
  | false => cases depth <;> rfl
  | string string =>
    obtain ⟨inside, characters, rfl⟩ := string
    rw [List.cons_append, List.append_assoc, skipValue_string]
    exact skipString_shaped characters rest
  | number numeral =>
    have skipped := readNumeral_spelled .malformedNumber numeral ends
    obtain ⟨c, more, rfl, front⟩ := exists_numeral_eq numeral
    rw [List.cons_append] at skipped ⊢
    rw [skipValue_number front, skipNumeral, skipped]
    rfl
  | @list items inside each separated ih =>
    rw [List.length_cons] at room short
    obtain ⟨inner, rfl⟩ : ∃ inner, depth = inner + 1 := ⟨depth - 1, by omega⟩
    have begins : ∀ item ∈ items, ∀ text, item = text → Begins text := by
      rintro item member _ rfl
      exact begins_of_shaped (each _ member)
    -- An item is shorter than the list that it stands in, so there is room for it one level further down.
    have skips : ∀ item ∈ items, ∀ text, item = text → text.length ≤ inside.length →
        Skips (skipValue bound inner) text := by
      rintro item member _ rfl within before rest spaces ends
      rw [skipValue_spaces spaces]
      exact ih _ member (by omega) (by omega) before rest spaces ends
    rw [List.cons_append, skipValue_list]
    exact skipParts_separated (.inl rfl) begins skips separated (by omega) le_rfl rest
  | @record members inside keys values separated ih =>
    rw [List.length_cons] at room short
    obtain ⟨inner, rfl⟩ : ∃ inner, depth = inner + 1 := ⟨depth - 1, by omega⟩
    have begins : ∀ member ∈ members, ∀ text, member.WrittenAs text → Begins text :=
      fun member inside _ => begins_of_writtenAs (keys member inside)
    have skips : ∀ member ∈ members, ∀ text, member.WrittenAs text → text.length ≤ inside.length →
        Skips (fun text => skipKey text >>= skipValue bound inner) text := by
      rintro member inside _ ⟨gap, space, gapSpaces, spaceSpaces, rfl⟩ within before rest spaces ends
      simp only [List.length_cons, List.length_append] at within
      simp only [List.append_assoc, List.cons_append, skipKey_shaped spaces (keys member inside) gapSpaces]
      exact (skipValue_spaces spaceSpaces _).trans
        (ih member inside (by omega) (by omega) [] rest spaces_nil ends)
    rw [List.cons_append, skipValue_record]
    exact skipParts_separated (.inr rfl) begins skips separated (by omega) le_rfl rest

theorem eq_of_skipKey (skipped : skipKey text = .ok rest) :
    ∃ before key gap, Spaces before ∧ ShapedString key ∧ Spaces gap ∧
      text = before ++ (key ++ (gap ++ ':' :: rest)) := by
  obtain ⟨before, spaces, parts⟩ := eq_append_skipSpace text
  rw [skipKey] at skipped
  split at skipped
  · cases skipped
  rename_i c more front
  rw [front] at parts
  split at skipped
  · rename_i quote
    obtain ⟨behind, string, colon⟩ := bind_eq_ok_iff.1 skipped
    obtain ⟨inside, shaped, rfl⟩ := shaped_of_skipString string
    obtain ⟨gap, gapSpaces, rfl⟩ := eq_of_afterColon colon
    exact ⟨before, _, gap, spaces, ⟨inside, shaped, rfl⟩, gapSpaces, by simp [parts, quote]⟩
  · cases skipped

/-- A value that was run over is no list and no record, or its parts were run over with room for one less. -/
theorem skipValue_cases (skipped : skipValue bound depth text = .ok rest) :
    ∃ before front, Spaces before ∧ text = before ++ front ∧
      ((∃ inside, Shaped inside ∧ front = inside ++ rest) ∨
        ∃ inner more, depth = inner + 1 ∧
          ((front = '[' :: more ∧
              skipParts ']' .endInList .noCommaInList (skipValue bound inner) bound true more = .ok rest) ∨
            (front = '\x7b' :: more ∧
              skipParts '\x7d' .endInObject .noCommaInObject (fun text => skipKey text >>= skipValue bound inner)
                bound true more = .ok rest))) := by
  obtain ⟨before, spaces, parts⟩ := eq_append_skipSpace text
  refine ⟨before, skipSpace text, spaces, parts, ?_⟩
  rw [skipValue.eq_def] at skipped
  split at skipped
  · cases skipped
  rename_i c more front
  rw [front]
  -- One branch for each first character, in the order in which the skipper asks.
  split at skipped
  · rename_i first
    obtain rfl := eq_of_afterWord skipped
    exact .inl ⟨_, .null, by rw [first]; rfl⟩
  split at skipped
  · rename_i first
    obtain rfl := eq_of_afterWord skipped
    exact .inl ⟨_, .true, by rw [first]; rfl⟩
  split at skipped
  · rename_i first
    obtain rfl := eq_of_afterWord skipped
    exact .inl ⟨_, .false, by rw [first]; rfl⟩
  split at skipped
  · rename_i quote
    obtain ⟨inside, characters, rfl⟩ := shaped_of_skipString skipped
    exact .inl ⟨_, .string ⟨inside, characters, rfl⟩, by simp [quote]⟩
  split at skipped
  · obtain ⟨⟨n, _⟩, numeral, result⟩ := map_eq_ok_iff.1 skipped
    cases result
    obtain ⟨inside, spelled, numeralParts⟩ := spelled_of_readNumeral numeral
    exact .inl ⟨inside, .number spelled, numeralParts⟩
  split at skipped
  · rename_i bracket
    cases depth with
    | zero => cases skipped
    | succ inner =>
      dsimp only at skipped
      rw [skipItems_eq] at skipped
      exact .inr ⟨inner, more, rfl, .inl ⟨by rw [bracket], skipped⟩⟩
  split at skipped
  · rename_i brace
    cases depth with
    | zero => cases skipped
    | succ inner =>
      dsimp only at skipped
      rw [skipFields_eq] at skipped
      exact .inr ⟨inner, more, rfl, .inr ⟨by rw [brace], skipped⟩⟩
  · cases skipped

/-- What is run over is white space and a text of the shape of a value. -/
theorem shaped_of_skipValue (skipped : skipValue bound depth text = .ok rest) :
    ∃ before inside, Spaces before ∧ Shaped inside ∧ text = before ++ (inside ++ rest) := by
  induction depth generalizing text rest with
  | zero =>
    obtain ⟨before, _, spaces, rfl, ⟨inside, shaped, rfl⟩ | ⟨_, _, impossible, _⟩⟩ := skipValue_cases skipped
    · exact ⟨before, inside, spaces, shaped, rfl⟩
    · cases impossible
  | succ depth ih =>
    obtain ⟨before, _, spaces, rfl, ⟨inside, shaped, rfl⟩ | ⟨inner, more, deeper, ⟨rfl, items⟩ | ⟨rfl, members⟩⟩⟩ :=
      skipValue_cases skipped
    · exact ⟨before, inside, spaces, shaped, rfl⟩
    · cases deeper
      have each : ∀ {text rest}, skipValue bound depth text = .ok rest →
          ∃ before item inside, Spaces before ∧ Shaped item ∧ item = inside ∧ text = before ++ (inside ++ rest) := by
        intro text rest skipped
        obtain ⟨before, inside, spaces, shaped, parts⟩ := ih skipped
        exact ⟨before, inside, inside, spaces, shaped, rfl, parts⟩
      obtain ⟨items, inside, shaped, separated, rfl⟩ := of_skipParts each items
      exact ⟨before, _, spaces, .list shaped separated, rfl⟩
    · cases deeper
      have each : ∀ {text rest}, (skipKey text >>= skipValue bound depth) = .ok rest →
          ∃ (before : List Char) (member : Member) (inside : List Char), Spaces before ∧ member.WellFormed ∧
            member.WrittenAs inside ∧ text = before ++ (inside ++ rest) := by
        intro text rest skipped
        obtain ⟨behind, keySkipped, valueSkipped⟩ := bind_eq_ok_iff.1 skipped
        obtain ⟨before, key, gap, spaces, keyShaped, gapSpaces, rfl⟩ := eq_of_skipKey keySkipped
        obtain ⟨space, value, spaceSpaces, shaped, rfl⟩ := ih valueSkipped
        exact ⟨before, ⟨key, value⟩, _, spaces, ⟨keyShaped, shaped⟩, ⟨gap, space, gapSpaces, spaceSpaces, rfl⟩,
          by simp⟩
      obtain ⟨members, inside, fine, separated, rfl⟩ := of_skipParts each members
      exact ⟨before, _, spaces, .record (fun member inside => (fine member inside).key)
        (fun member inside => (fine member inside).value) separated, rfl⟩

/-- A text of the shape of a value is run over wherever a value can end. -/
theorem skip_shaped {before : List Char} (spaces : Spaces before) (shaped : Shaped text) (ends : Ends rest) :
    skip (before ++ (text ++ rest)) = .ok rest := by
  have room : text.length < loopBound (before ++ (text ++ rest)) := by
    simp only [loopBound, List.length_append]
    omega
  exact skips_shaped shaped room room before rest spaces ends

end

end LogSieve.Json
