import LogSieve.Json.Reader
/-!
# The grammar of JSON

Which texts stand for a value, with the fields of its records as they are written. White space
may stand between any two parts; a character of a string stands for itself or is an escape of
any kind; a number is any numeral for it. The grammar knows no bound on the depth, and nothing
of how a text is read.
-/
namespace LogSieve.Json

def Spaces (text : List Char) : Prop := ∀ c ∈ text, isSpace c = true

/-- The text with white space in front of it and behind it. -/
def Padded (holds : List Char → Prop) (text : List Char) : Prop :=
  ∃ before inside after, Spaces before ∧ holds inside ∧ Spaces after ∧ text = before ++ (inside ++ after)

/-! ## Strings -/

/-- What may stand between quotes for the characters of a string. -/
inductive SpellsCharacters : (s text : List Char) → Prop where
  | nil : SpellsCharacters [] []
  | plain {c : Char} {s text : List Char} (quote : c ≠ '"') (backslash : c ≠ '\\')
      (printable : ¬ c.toNat < 0x20) (more : SpellsCharacters s text) : SpellsCharacters (c :: s) (c :: text)
  | letter {letter c : Char} {s text : List Char} (stands : ofEscape? letter = some c)
      (more : SpellsCharacters s text) : SpellsCharacters (c :: s) ('\\' :: letter :: text)
  /-- A code unit that is no half of a pair. -/
  | unit {c₁ c₂ c₃ c₄ : Char} {unit : Nat} {s text : List Char} (digits : unit? c₁ c₂ c₃ c₄ = some unit)
      (notHigh : ¬ IsHigh unit) (notLow : ¬ IsLow unit) (more : SpellsCharacters s text) :
      SpellsCharacters (Char.ofNat unit :: s) ('\\' :: 'u' :: c₁ :: c₂ :: c₃ :: c₄ :: text)
  | pair {c₁ c₂ c₃ c₄ d₁ d₂ d₃ d₄ : Char} {high low : Nat} {s text : List Char}
      (digits : unit? c₁ c₂ c₃ c₄ = some high) (isHigh : IsHigh high)
      (moreDigits : unit? d₁ d₂ d₃ d₄ = some low) (isLow : IsLow low) (more : SpellsCharacters s text) :
      SpellsCharacters (ofPair high low :: s)
        ('\\' :: 'u' :: c₁ :: c₂ :: c₃ :: c₄ :: '\\' :: 'u' :: d₁ :: d₂ :: d₃ :: d₄ :: text)

def SpellsString (s : String) (text : List Char) : Prop :=
  ∃ inside, SpellsCharacters s.toList inside ∧ text = '"' :: (inside ++ ['"'])

/-! ## Numbers -/

/-- One digit or more, and nothing else. -/
def Digits (text : List Char) : Prop := text ≠ [] ∧ ∀ c ∈ text, isDigit c = true

/-- The digits in front of the point: a zero stands alone. -/
def WholeDigits (text : List Char) : Prop := Digits text ∧ (text.head? = some '0' → text = ['0'])

inductive SpellsFraction : (digits text : List Char) → Prop where
  | none : SpellsFraction [] []
  | point {digits : List Char} (atLeastOne : Digits digits) : SpellsFraction digits ('.' :: digits)

/-- The sign of an exponent; none means plus. -/
inductive SpellsSign : (negative : Bool) → (text : List Char) → Prop where
  | none : SpellsSign false []
  | plus : SpellsSign false ['+']
  | minus : SpellsSign true ['-']

inductive SpellsExponent : Option Exponent → (text : List Char) → Prop where
  | none : SpellsExponent none []
  | e {e : Char} {exponent : Exponent} {sign : List Char} (letter : e = 'e' ∨ e = 'E')
      (signs : SpellsSign exponent.negative sign) (atLeastOne : Digits exponent.digits) :
      SpellsExponent (some exponent) (e :: (sign ++ exponent.digits))

def SpellsUnsigned (n : Numeral) (text : List Char) : Prop :=
  ∃ fraction exponent, WholeDigits n.whole ∧ SpellsFraction n.fraction fraction ∧
    SpellsExponent n.exponent exponent ∧ text = n.whole ++ (fraction ++ exponent)

def SpellsNumeral (n : Numeral) (text : List Char) : Prop :=
  ∃ unsigned, SpellsUnsigned n unsigned ∧ text = if n.negative then '-' :: unsigned else unsigned

/-- A numeral for a number within the range of its kind. -/
def SpellsNumber (number : Number) (text : List Char) : Prop :=
  ∃ n : Numeral, SpellsNumeral n text ∧ n.number = .ok number

/-! ## Values -/

mutual
/-- The text stands for the value, whose fields are in the order of the text. -/
def Spells : Value → (text : List Char) → Prop
  | .null, text => text = ['n', 'u', 'l', 'l']
  | .bool b, text => text = if b then ['t', 'r', 'u', 'e'] else ['f', 'a', 'l', 's', 'e']
  | .number number, text => SpellsNumber number text
  | .string s, text => SpellsString s text
  | .array items, text => ∃ inside, SpellsItems items inside ∧ text = '[' :: (inside ++ [']'])
  | .record fields, text => ∃ inside, SpellsFields fields inside ∧ text = '\x7b' :: (inside ++ ['\x7d'])
/-- What may stand between brackets. -/
def SpellsItems : List Value → (text : List Char) → Prop
  | [], text => Spaces text
  | item :: rest, text =>
    ∃ first more, Padded (Spells item) first ∧ SpellsMoreItems rest more ∧ text = first ++ more
/-- Items with a comma in front of each. -/
def SpellsMoreItems : List Value → (text : List Char) → Prop
  | [], text => text = []
  | item :: rest, text =>
    ∃ first more, Padded (Spells item) first ∧ SpellsMoreItems rest more ∧ text = ',' :: (first ++ more)
/-- What may stand between braces. -/
def SpellsFields : List (String × Value) → (text : List Char) → Prop
  | [], text => Spaces text
  | (name, value) :: rest, text =>
    ∃ key first more, Padded (SpellsString name) key ∧ Padded (Spells value) first ∧
      SpellsMoreFields rest more ∧ text = key ++ ':' :: (first ++ more)
/-- Fields with a comma in front of each. -/
def SpellsMoreFields : List (String × Value) → (text : List Char) → Prop
  | [], text => text = []
  | (name, value) :: rest, text =>
    ∃ key first more, Padded (SpellsString name) key ∧ Padded (Spells value) first ∧
      SpellsMoreFields rest more ∧ text = ',' :: (key ++ ':' :: (first ++ more))
end

end LogSieve.Json

namespace LogSieve

/-- The line is JSON for the value. -/
def Value.SpelledBy (value : Value) (line : String) : Prop := Json.Padded (Json.Spells value) line.toList

end LogSieve
