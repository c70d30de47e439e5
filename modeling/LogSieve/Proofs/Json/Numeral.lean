import LogSieve.Json.Printer
import LogSieve.Proofs.Json.Grammar
/-!
# Numbers read back

A reader takes from the front of a text all that can belong to a numeral, so every numeral is
read as its number wherever a value can end (`readNumber_spelled`). The digits of a whole
number stand for that number (`ofDigits_writeNat`), and one of 64 bits is written as a numeral
for it (`spellsNumber_writeInt`).
-/
namespace LogSieve

/-- The number is a whole number that 64 bits hold, with a sign or without. -/
def Number.IsWord : Number → Prop
  | .integer n => -(Json.signedLimit : Int) ≤ n ∧ n < Decimal.wordLimit
  | .float _ => False

end LogSieve

namespace LogSieve.Json

/-- A value can end here: nothing follows, or white space, a comma or a closing bracket does. -/
def Ends (rest : List Char) : Prop := ∀ c ∈ rest.head?, isSpace c = true ∨ c = ',' ∨ c = ']' ∨ c = '\x7d'

theorem ends_nil : Ends [] := by
  intro c impossible
  cases impossible

/-- No numeral goes on where a value can end. -/
theorem Ends.stops {rest : List Char} (ends : Ends rest) :
    ∀ c ∈ rest.head?, isDigit c = false ∧ c ≠ '.' ∧ c ≠ 'e' ∧ c ≠ 'E' := by
  intro c first
  rcases ends c first with space | rfl | rfl | rfl
  · simp only [isSpace, Bool.or_eq_true, beq_iff_eq] at space
    rcases space with ((rfl | rfl) | rfl) | rfl <;> decide
  · decide
  · decide
  · decide

/-! ## Digits -/

theorem ofDigits_eq (digits : List Char) : ofDigits digits = Nat.ofDigitChars 10 digits 0 := by
  rw [ofDigits, Nat.ofDigitChars]
  congr 1
  funext n c
  rw [digitValue, Nat.mul_comm]
  rfl

theorem ofDigits_writeNat (n : Nat) : ofDigits (writeNat n) = n := by
  rw [ofDigits_eq, writeNat, Nat.ofDigitChars_ten_toDigits]

theorem isDigit_of_mem_writeNat {n : Nat} {c : Char} (member : c ∈ writeNat n) : isDigit c = true := by
  have digit := Nat.isDigit_of_mem_toDigits (by decide) (by decide) member
  rw [Char.isDigit, Bool.and_eq_true, decide_eq_true_eq, decide_eq_true_eq] at digit
  rw [isDigit, Bool.and_eq_true, decide_eq_true_eq, decide_eq_true_eq]
  exact digit

/-- Only zero is written with a zero in front. -/
theorem eq_zero_of_writeNat_eq {n : Nat} {rest : List Char} (written : writeNat n = '0' :: rest) : n = 0 := by
  induction n using Nat.base_induction 10 (by decide) generalizing rest with
  | single m small =>
    rw [writeNat, Nat.toDigits_of_lt_base small] at written
    simpa using (List.cons.inj written).1
  | digit m k small positive ih =>
    rw [writeNat, ← Nat.toDigits_append_toDigits (by decide) positive small] at written
    cases digits : Nat.toDigits 10 m with
    | nil => exact absurd digits Nat.toDigits_ne_nil
    | cons c more =>
      rw [digits, List.cons_append, List.cons.injEq] at written
      have zero := ih (digits.trans (by rw [written.1]))
      omega

theorem spanDigits_append {digits rest : List Char} (all : ∀ c ∈ digits, isDigit c = true)
    (stop : ∀ c ∈ rest.head?, isDigit c = false) : spanDigits (digits ++ rest) = (digits, rest) := by
  have taken : rest.takeWhile isDigit = [] ∧ rest.dropWhile isDigit = rest := by
    cases rest with
    | nil => exact ⟨rfl, rfl⟩
    | cons c more => simp [stop c rfl]
  rw [spanDigits, List.takeWhile_append_of_pos all, List.dropWhile_append_of_pos all, taken.1, taken.2,
    List.append_nil]

/-! ## Numerals -/

section
variable {text rest : List Char} (atEnd : Cause)

theorem readDigits_spelled {digits : List Char} (atLeastOne : Digits digits)
    (stop : ∀ c ∈ rest.head?, isDigit c = false) : readDigits atEnd (digits ++ rest) = .ok (digits, rest) := by
  obtain ⟨some, all⟩ := atLeastOne
  rw [readDigits, spanDigits_append all stop]
  cases digits with
  | nil => exact absurd rfl some
  | cons c more => rfl

theorem readWhole_spelled {digits : List Char} (whole : WholeDigits digits)
    (stop : ∀ c ∈ rest.head?, isDigit c = false) : readWhole atEnd (digits ++ rest) = .ok (digits, rest) := by
  obtain ⟨atLeastOne, alone⟩ := whole
  by_cases zero : digits.head? = some '0'
  · rw [alone zero]
    cases rest with
    | nil => rfl
    | cons c more => simp [readWhole, stop c rfl]
  · rw [readWhole.eq_2]
    · exact readDigits_spelled atEnd atLeastOne stop
    · intro more front
      cases digits with
      | nil => exact atLeastOne.1 rfl
      | cons c others =>
        rw [List.cons_append, List.cons.injEq] at front
        exact zero (by rw [front.1, List.head?_cons])

theorem readFraction_spelled {digits : List Char} (spelled : SpellsFraction digits text)
    (stop : ∀ c ∈ rest.head?, isDigit c = false ∧ c ≠ '.') :
    readFraction atEnd (text ++ rest) = .ok (digits, rest) := by
  cases spelled with
  | none =>
    rw [List.nil_append, readFraction.eq_2]
    rintro more rfl
    exact (stop '.' rfl).2 rfl
  | point atLeastOne => exact readDigits_spelled atEnd atLeastOne fun c first => (stop c first).1

theorem readSign_spelled {negative : Bool} (spelled : SpellsSign negative text) {digits : List Char}
    (atLeastOne : Digits digits) : readSign (text ++ (digits ++ rest)) = (negative, digits ++ rest) := by
  cases spelled with
  | plus => rfl
  | minus => rfl
  | none =>
    obtain ⟨some, all⟩ := atLeastOne
    cases digits with
    | nil => exact absurd rfl some
    | cons c more =>
      have digit := all c List.mem_cons_self
      rw [List.nil_append, readSign.eq_3]
      · rintro others ⟨rfl, _⟩
        cases digit
      · rintro others ⟨rfl, _⟩
        cases digit

theorem readExponent_spelled {exponent : Option Exponent} (spelled : SpellsExponent exponent text)
    (ends : Ends rest) : readExponent atEnd (text ++ rest) = .ok (exponent, rest) := by
  cases spelled with
  | none =>
    cases rest with
    | nil => rfl
    | cons c more =>
      obtain ⟨_, _, notSmall, notLarge⟩ := ends.stops c rfl
      simp [readExponent, notSmall, notLarge]
  | e letter signs atLeastOne =>
    rw [List.cons_append, List.append_assoc, readExponent, if_pos letter, readSign_spelled signs atLeastOne]
    simp only [readDigits_spelled atEnd atLeastOne fun c first => (ends.stops c first).1, bind, Except.bind]

theorem stops_exponent {exponent : Option Exponent} (spelled : SpellsExponent exponent text) (ends : Ends rest) :
    ∀ c ∈ (text ++ rest).head?, isDigit c = false ∧ c ≠ '.' := by
  intro c first
  cases spelled with
  | none => exact ⟨(ends.stops c first).1, (ends.stops c first).2.1⟩
  | e letter signs atLeastOne =>
    obtain rfl := Option.some.inj first
    rcases letter with rfl | rfl <;> decide

theorem stops_fraction {digits : List Char} (spelled : SpellsFraction digits text)
    (stop : ∀ c ∈ rest.head?, isDigit c = false) : ∀ c ∈ (text ++ rest).head?, isDigit c = false := by
  intro c first
  cases spelled with
  | none => exact stop c first
  | point atLeastOne =>
    obtain rfl := Option.some.inj first
    rfl

theorem readUnsigned_spelled {n : Numeral} (spelled : SpellsUnsigned n text) (ends : Ends rest) :
    readUnsigned atEnd n.negative (text ++ rest) = .ok (n, rest) := by
  obtain ⟨fraction, exponent, whole, fractionSpelled, exponentSpelled, rfl⟩ := spelled
  have stop := stops_exponent exponentSpelled ends
  have wholeStop := stops_fraction fractionSpelled fun c first => (stop c first).1
  rw [List.append_assoc, List.append_assoc]
  simp only [readUnsigned, readWhole_spelled atEnd whole wholeStop, readFraction_spelled atEnd fractionSpelled stop,
    readExponent_spelled atEnd exponentSpelled ends, bind, Except.bind]

theorem exists_unsigned_eq {n : Numeral} (spelled : SpellsUnsigned n text) :
    ∃ c more, text = c :: more ∧ isDigit c = true := by
  obtain ⟨fraction, exponent, ⟨⟨some, all⟩, _⟩, _, _, rfl⟩ := spelled
  cases whole : n.whole with
  | nil => exact absurd whole some
  | cons c more => exact ⟨c, _, rfl, all c (by simp [whole])⟩

theorem readNumeral_spelled {n : Numeral} (spelled : SpellsNumeral n text) (ends : Ends rest) :
    readNumeral atEnd (text ++ rest) = .ok (n, rest) := by
  obtain ⟨unsigned, spelled, rfl⟩ := spelled
  have read := readUnsigned_spelled atEnd spelled ends
  cases negative : n.negative with
  | true =>
    rw [negative] at read
    rwa [if_pos rfl]
  | false =>
    rw [negative] at read
    rw [if_neg (by decide), readNumeral.eq_2]
    · exact read
    · intro more front
      obtain ⟨c, others, rfl, digit⟩ := exists_unsigned_eq spelled
      rw [List.cons_append, List.cons.injEq] at front
      rw [front.1] at digit
      cases digit

/-- Every numeral begins with a minus sign or with a digit. -/
theorem exists_numeral_eq {n : Numeral} (spelled : SpellsNumeral n text) :
    ∃ c more, text = c :: more ∧ (c = '-' ∨ isDigit c = true) := by
  obtain ⟨unsigned, spelled, rfl⟩ := spelled
  split
  · exact ⟨'-', unsigned, rfl, .inl rfl⟩
  · obtain ⟨c, more, rfl, digit⟩ := exists_unsigned_eq spelled
    exact ⟨c, more, rfl, .inr digit⟩

/-- A numeral is read as its number where a value can end. -/
theorem readNumber_spelled {number : Number} (spelled : SpellsNumber number text) (ends : Ends rest) :
    readNumber (text ++ rest) = .ok (number, rest) := by
  obtain ⟨n, spelled, value⟩ := spelled
  simp only [readNumber, readNumeral_spelled _ spelled ends, value, bind, Except.bind]

end

/-! ## Writing -/

theorem wholeDigits_writeNat (n : Nat) : WholeDigits (writeNat n) := by
  refine ⟨⟨Nat.toDigits_ne_nil, fun c => isDigit_of_mem_writeNat⟩, fun zero => ?_⟩
  cases written : writeNat n with
  | nil => exact absurd written Nat.toDigits_ne_nil
  | cons c more =>
    rw [written, List.head?_cons, Option.some.injEq] at zero
    rw [zero] at written
    rw [eq_zero_of_writeNat_eq written] at written
    rw [zero, ← written]
    rfl

theorem integer?_writeNat {n : Int} (word : (Number.integer n).IsWord) :
    Numeral.integer? ⟨decide (n < 0), writeNat n.natAbs, [], none⟩ = some n := by
  obtain ⟨least, greatest⟩ := word
  rw [Numeral.integer?, ofDigits_writeNat]
  by_cases negative : n < 0
  · have inRange : 0 < n.natAbs ∧ n.natAbs ≤ signedLimit := by omega
    simp only [negative, decide_true, if_true, if_pos inRange, Option.some.injEq]
    omega
  · have inRange : n.natAbs < Decimal.wordLimit := by omega
    simp only [negative, decide_false, Bool.false_eq_true, if_false, if_pos inRange, Option.some.injEq]
    omega

/-- A whole number of 64 bits is written as a numeral for it. -/
theorem spellsNumber_writeInt {n : Int} (word : (Number.integer n).IsWord) :
    SpellsNumber (.integer n) (writeInt n) := by
  refine ⟨⟨decide (n < 0), writeNat n.natAbs, [], none⟩, ⟨writeNat n.natAbs, ?_, ?_⟩, ?_⟩
  · exact ⟨[], [], wholeDigits_writeNat _, .none, .none, by simp⟩
  · cases n with
    | ofNat n => rfl
    | negSucc n => simp [writeInt, Int.natAbs_negSucc]
  · simp only [Numeral.number, Numeral.isWhole, List.isEmpty_nil, Option.isNone_none, Bool.and_self, if_true,
      integer?_writeNat word]

end LogSieve.Json
