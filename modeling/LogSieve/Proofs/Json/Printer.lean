import LogSieve.Proofs.Nesting
/-!
# What is written of a value

Strings are written with every control character in them escaped, and nothing else that is
written holds one, so none stands in the text of a value (`printable_write`): it is a single
line, whatever the value.
-/
namespace LogSieve.Json
open Value

/-- No control character is in the text. -/
def Printable (text : List Char) : Prop := ∀ c ∈ text, 0x20 ≤ c.toNat

instance (text : List Char) : Decidable (Printable text) := List.decidableBAll (fun c : Char => 0x20 ≤ c.toNat) text

@[simp] theorem printable_nil : Printable [] := by simp [Printable]

@[simp] theorem printable_cons {c : Char} {text : List Char} :
    Printable (c :: text) ↔ 0x20 ≤ c.toNat ∧ Printable text := by simp [Printable]

@[simp] theorem printable_append {text more : List Char} :
    Printable (text ++ more) ↔ Printable text ∧ Printable more := by
  simp [Printable, or_imp, forall_and]

theorem Printable.of_subset {text more : List Char} (printable : Printable more) (subset : text ⊆ more) :
    Printable text := fun c member => printable c (subset member)

/-! ## Strings -/

theorem le_toNat_hexDigit : ∀ n < 16, 0x20 ≤ (hexDigit n).toNat := by decide

theorem printable_escaped (c : Char) : Printable (escaped c) := by
  unfold escaped
  split_ifs with _ _ _ _ _ _ _ control
  -- The first branches give fixed letters.
  any_goals decide
  · have high := le_toNat_hexDigit (c.toNat / 16) (by omega)
    have low := le_toNat_hexDigit (c.toNat % 16) (by omega)
    simp [high, low]
  · simpa using control

theorem printable_writeString (s : String) : Printable (writeString s) := by
  have inside : Printable (s.toList.flatMap escaped) := by
    intro c member
    obtain ⟨source, _, member⟩ := List.mem_flatMap.1 member
    exact printable_escaped source c member
  simp [writeString, writeAfterQuote, inside]

/-! ## Numbers -/

theorem printable_writeNat (n : Nat) : Printable (writeNat n) := by
  intro c member
  have digit := isDigit_of_mem_writeNat member
  rw [isDigit, Bool.and_eq_true, decide_eq_true_eq] at digit
  have least : '0'.toNat ≤ c.toNat := digit.1
  exact (by decide : 0x20 ≤ '0'.toNat).trans least

theorem printable_writeInt (n : Int) : Printable (writeInt n) := by
  cases n with
  | ofNat n => exact printable_writeNat n
  | negSucc n => simp [writeInt, printable_writeNat]

theorem printable_replicate_zero (count : Nat) : Printable (List.replicate count '0') := by
  intro c member
  rw [List.eq_of_mem_replicate member]
  decide

theorem printable_writePlain {digits : List Char} (printable : Printable digits) (exponent : Int) :
    Printable (writePlain digits exponent) := by
  have front := printable.of_subset (List.take_subset (digits.length - exponent.natAbs) digits)
  have back := printable.of_subset (List.drop_subset (digits.length - exponent.natAbs) digits)
  unfold writePlain
  split
  · simp [printable, printable_replicate_zero]
  · simp only
    split
    · simp [front, back]
    · simp [printable, printable_replicate_zero]

theorem printable_writeScientific {digits : List Char} (printable : Printable digits) (leading : Int) :
    Printable (writeScientific digits leading) := by
  have front := printable.of_subset (List.take_subset 1 digits)
  have back := printable.of_subset (List.drop_subset 1 digits)
  have sign : 0x20 ≤ (if leading < 0 then '-' else '+').toNat := by split <;> decide
  have mantissa : Printable (if digits.length ≤ 1 then digits else digits.take 1 ++ '.' :: digits.drop 1) := by
    split
    · exact printable
    · rw [printable_append, printable_cons]
      exact ⟨front, by decide, back⟩
  unfold writeScientific
  rw [printable_append, printable_cons, printable_cons]
  exact ⟨mantissa, by decide, sign, printable_writeNat _⟩

theorem printable_writeFloat (x : Float) : Printable (writeFloat x) := by
  have decimal : ∀ number, Printable (writeDecimal floatLayout number) := by
    intro number
    unfold writeDecimal
    simp only
    split
    · exact printable_writePlain (printable_writeNat _) _
    · exact printable_writeScientific (printable_writeNat _) _
  unfold writeFloat
  simp only
  split_ifs
  all_goals simp [decimal]

/-! ## Values -/

theorem printable_writeMoreItems {items : List Value} (each : ∀ item ∈ items, Printable (write item)) :
    Printable (writeMoreItems items) := by
  induction items with
  | nil => simp [writeMoreItems]
  | cons item rest ih =>
    obtain ⟨first, others⟩ := List.forall_mem_cons.1 each
    simp [writeMoreItems, first, ih others]

theorem printable_writeMoreFields {fields : List (String × Value)}
    (each : ∀ field ∈ fields, Printable (write field.2)) : Printable (writeMoreFields fields) := by
  induction fields with
  | nil => simp [writeMoreFields]
  | cons field rest ih =>
    obtain ⟨name, value⟩ := field
    obtain ⟨first, others⟩ := List.forall_mem_cons.1 each
    simp [writeMoreFields, printable_writeString, first, ih others]

theorem printable_write (value : Value) : Printable (write value) := by
  induction value using nested_induction with
  | null => decide
  | bool b => cases b <;> decide
  | number n =>
    cases n with
    | integer n => exact printable_writeInt n
    | float x => exact printable_writeFloat x
  | string s => exact printable_writeString s
  | array items ih =>
    cases items with
    | nil => decide
    | cons item rest =>
      obtain ⟨first, others⟩ := List.forall_mem_cons.1 ih
      simp [write, first, printable_writeMoreItems others]
  | record fields ih =>
    cases fields with
    | nil => decide
    | cons field rest =>
      obtain ⟨name, value⟩ := field
      obtain ⟨first, others⟩ := List.forall_mem_cons.1 ih
      simp [write, printable_writeString, first, printable_writeMoreFields others]

end LogSieve.Json
