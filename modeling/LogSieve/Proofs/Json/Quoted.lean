import LogSieve.Proofs.Json.Grammar
/-!
# Strings read back

A character stands for itself, or is an escape by a letter, by a code unit or by a pair of
them, and each of the four is read as that character, so whatever is spelled is read, whatever
follows the closing quote (`readString_spelled`). A string is written in one of its spellings
(`spellsString_writeString`).
-/
namespace LogSieve.Json

/-! ## Reading -/

theorem readString_letter {letter c : Char} (stands : ofEscape? letter = some c) (rest : List Char) :
    readString ('\\' :: letter :: rest) = consRead c (readString rest) := by
  have notUnit : letter ≠ 'u' := by
    rintro rfl
    cases stands
  rw [readString, stands]
  · simp [notUnit]
  · simp [notUnit]

theorem readString_unit {c₁ c₂ c₃ c₄ : Char} {unit : Nat} (digits : unit? c₁ c₂ c₃ c₄ = some unit)
    (notHigh : ¬ IsHigh unit) (notLow : ¬ IsLow unit) (rest : List Char) :
    readString ('\\' :: 'u' :: c₁ :: c₂ :: c₃ :: c₄ :: rest) = consRead (Char.ofNat unit) (readString rest) := by
  rw [readString]
  simp only [digits, if_neg notLow, if_neg notHigh]

theorem readString_pair {c₁ c₂ c₃ c₄ d₁ d₂ d₃ d₄ : Char} {high low : Nat}
    (digits : unit? c₁ c₂ c₃ c₄ = some high) (isHigh : IsHigh high)
    (moreDigits : unit? d₁ d₂ d₃ d₄ = some low) (isLow : IsLow low) (rest : List Char) :
    readString ('\\' :: 'u' :: c₁ :: c₂ :: c₃ :: c₄ :: '\\' :: 'u' :: d₁ :: d₂ :: d₃ :: d₄ :: rest) =
      consRead (ofPair high low) (readString rest) := by
  have notLow : ¬ IsLow high := by
    rintro ⟨least, _⟩
    obtain ⟨_, greatest⟩ := isHigh
    omega
  rw [readString]
  simp only [digits, if_neg notLow, if_pos isHigh, moreDigits, if_pos isLow]

theorem readString_plain {c : Char} (quote : c ≠ '"') (backslash : c ≠ '\\') (printable : ¬ c.toNat < 0x20)
    (rest : List Char) : readString (c :: rest) = consRead c (readString rest) := by
  rw [readString, if_neg printable]
  all_goals simp [quote, backslash]

/-- Reading up to the closing quote gives the characters and leaves what follows. -/
theorem readString_spelled {s text : List Char} (spelled : SpellsCharacters s text) (rest : List Char) :
    readString (text ++ '"' :: rest) = .ok (s, rest) := by
  induction spelled with
  | nil => rfl
  | plain quote backslash printable more ih =>
    rw [List.cons_append, readString_plain quote backslash printable, ih]
    rfl
  | letter stands more ih =>
    rw [List.cons_append, List.cons_append, readString_letter stands, ih]
    rfl
  | unit digits notHigh notLow more ih =>
    simp only [List.cons_append]
    rw [readString_unit digits notHigh notLow, ih]
    rfl
  | pair digits isHigh moreDigits isLow more ih =>
    simp only [List.cons_append]
    rw [readString_pair digits isHigh moreDigits isLow, ih]
    rfl

/-- No text is one for two strings. -/
theorem spellsString_unique {s t : String} {text : List Char} (spelled : SpellsString s text)
    (otherSpelled : SpellsString t text) : s = t := by
  obtain ⟨inside, characters, rfl⟩ := spelled
  obtain ⟨other, otherCharacters, same⟩ := otherSpelled
  obtain rfl := List.append_cancel_right (List.cons.inj same).2
  have read := readString_spelled characters []
  rw [readString_spelled otherCharacters] at read
  exact String.toList_inj.1 (Prod.mk.inj (Except.ok.inj read)).1.symm

/-! ## Writing -/

theorem hexValue?_hexDigit : ∀ n < 16, hexValue? (hexDigit n) = some n := by decide

/-- The code unit of a control character has two zeros in front. -/
theorem unit?_hexDigit {n : Nat} (small : n < 0x20) :
    unit? '0' '0' (hexDigit (n / 16)) (hexDigit (n % 16)) = some n := by
  have zero : hexValue? '0' = some 0 := rfl
  have high := hexValue?_hexDigit (n / 16) (by omega)
  have low := hexValue?_hexDigit (n % 16) (by omega)
  simp only [unit?, zero, high, low, Option.bind_eq_bind, Option.bind_some, Option.pure_def,
    Option.some.injEq]
  omega

theorem escaped_cases (c : Char) :
    (∃ letter, escaped c = ['\\', letter] ∧ ofEscape? letter = some c) ∨
    (c.toNat < 0x20 ∧
      escaped c = ['\\', 'u', '0', '0', hexDigit (c.toNat / 16), hexDigit (c.toNat % 16)]) ∨
    (c ≠ '"' ∧ c ≠ '\\' ∧ ¬ c.toNat < 0x20 ∧ escaped c = [c]) := by
  unfold escaped
  split
  · rename_i quote
    exact .inl ⟨'"', rfl, by simp [ofEscape?, quote]⟩
  split
  · rename_i backslash
    exact .inl ⟨'\\', rfl, by simp [ofEscape?, backslash]⟩
  split
  · rename_i backspace
    exact .inl ⟨'b', rfl, by simp [ofEscape?, backspace]⟩
  split
  · rename_i formFeed
    exact .inl ⟨'f', rfl, by simp [ofEscape?, formFeed]⟩
  split
  · rename_i lineFeed
    exact .inl ⟨'n', rfl, by simp [ofEscape?, lineFeed]⟩
  split
  · rename_i carriageReturn
    exact .inl ⟨'r', rfl, by simp [ofEscape?, carriageReturn]⟩
  split
  · rename_i tab
    exact .inl ⟨'t', rfl, by simp [ofEscape?, tab]⟩
  split
  · rename_i control
    exact .inr (.inl ⟨control, rfl⟩)
  · rename_i quote backslash _ _ _ _ _ printable
    exact .inr (.inr ⟨quote, backslash, printable, rfl⟩)

theorem spellsCharacters_escaped (c : Char) {s text : List Char} (more : SpellsCharacters s text) :
    SpellsCharacters (c :: s) (escaped c ++ text) := by
  rcases escaped_cases c with ⟨letter, written, stands⟩ | ⟨control, written⟩ |
    ⟨quote, backslash, printable, written⟩
  · rw [written]
    exact .letter stands more
  · have notLow : ¬ IsLow c.toNat := fun low => absurd low.1 (by omega)
    have notHigh : ¬ IsHigh c.toNat := fun high => absurd high.1 (by omega)
    rw [written]
    simpa using SpellsCharacters.unit (unit?_hexDigit control) notHigh notLow more
  · rw [written]
    exact .plain quote backslash printable more

theorem spellsString_writeString (s : String) : SpellsString s (writeString s) := by
  have inside : SpellsCharacters s.toList (s.toList.flatMap escaped) := by
    induction s.toList with
    | nil => exact .nil
    | cons c rest ih => exact spellsCharacters_escaped c ih
  exact ⟨_, inside, rfl⟩

end LogSieve.Json
