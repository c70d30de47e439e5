import LogSieve.Json.Fault
/-!
# Strings in quotes

`writeString` gives every string one written form; `readString` reads that form and
the other escapes that JSON allows. Both speak of the part after the opening quote.
`skipString` runs over a string that nobody asked for: it looks at the shape of the
escapes and not at the characters that they stand for.
-/
namespace LogSieve.Json

/-! ## Writing -/

/-- The digit for a number below 16, in lower case. -/
def hexDigit (n : Nat) : Char := if n < 10 then Char.ofNat (48 + n) else Char.ofNat (87 + n)

/-- A character inside quotes. Besides the quote and the backslash only the control characters
    below U+0020 are escaped. -/
def escaped (c : Char) : List Char :=
  if c = '"' then ['\\', '"']
  else if c = '\\' then ['\\', '\\']
  else if c = '\x08' then ['\\', 'b']
  else if c = '\x0c' then ['\\', 'f']
  else if c = '\n' then ['\\', 'n']
  else if c = '\r' then ['\\', 'r']
  else if c = '\t' then ['\\', 't']
  else if c.toNat < 0x20 then ['\\', 'u', '0', '0', hexDigit (c.toNat / 16), hexDigit (c.toNat % 16)]
  else [c]

def writeAfterQuote (s : List Char) : List Char := s.flatMap escaped ++ ['"']

def writeString (s : String) : List Char := '"' :: writeAfterQuote s.toList

/-! ## Reading -/

def hexValue? (c : Char) : Option Nat :=
  if '0' ≤ c ∧ c ≤ '9' then some (c.toNat - 48)
  else if 'a' ≤ c ∧ c ≤ 'f' then some (c.toNat - 87)
  else if 'A' ≤ c ∧ c ≤ 'F' then some (c.toNat - 55)
  else none

def unit? (a b c d : Char) : Option Nat := do
  let a ← hexValue? a
  let b ← hexValue? b
  let c ← hexValue? c
  let d ← hexValue? d
  pure (((a * 16 + b) * 16 + c) * 16 + d)

/-- The code unit is the first of a surrogate pair. -/
def IsHigh (unit : Nat) : Prop := 0xD800 ≤ unit ∧ unit ≤ 0xDBFF

/-- The code unit is the second of a surrogate pair. -/
def IsLow (unit : Nat) : Prop := 0xDC00 ≤ unit ∧ unit ≤ 0xDFFF

instance (unit : Nat) : Decidable (IsHigh unit) := inferInstanceAs (Decidable (_ ∧ _))
instance (unit : Nat) : Decidable (IsLow unit) := inferInstanceAs (Decidable (_ ∧ _))

def ofPair (high low : Nat) : Char := Char.ofNat ((high - 0xD800) * 0x400 + (low - 0xDC00) + 0x10000)

/-- What is wrong with a text that should begin with four hexadecimal digits. Four bytes are read
    where there are as many. -/
def hexFault (rest : List Char) : Fault :=
  if byteCount rest < 4 then ⟨.endInString, 0⟩ else ⟨.unknownEscape, byteCount rest - 4⟩

/-- What is wrong where a high surrogate is not followed by another escape. -/
def pairFault : List Char → Fault
  | '\\' :: rest => if rest = [] then .before .endInString [] else .at .cutSurrogatePair rest
  | rest => if rest = [] then .before .endInString [] else .at .cutSurrogatePair rest

/-- The character that a backslash and this letter stand for. -/
def ofEscape? (letter : Char) : Option Char :=
  if letter = '"' ∨ letter = '\\' ∨ letter = '/' then some letter
  else if letter = 'b' then some '\x08'
  else if letter = 'f' then some '\x0c'
  else if letter = 'n' then some '\n'
  else if letter = 'r' then some '\r'
  else if letter = 't' then some '\t'
  else none

/-- Puts a character before the string read from what follows it. -/
def consRead (c : Char) (result : Except Fault (List Char × List Char)) :
    Except Fault (List Char × List Char) :=
  result.map (fun read => (c :: read.1, read.2))

/-- The characters up to the closing quote, and the text after it. -/
def readString : List Char → Except Fault (List Char × List Char)
  | [] => .error (.before .endInString [])
  | '"' :: rest => .ok ([], rest)
  | '\\' :: [] => .error (.before .endInString [])
  | '\\' :: 'u' :: a :: b :: c :: d :: rest =>
    match unit? a b c d with
    | none => .error (hexFault (a :: b :: c :: d :: rest))
    | some unit =>
      if IsLow unit then .error (.before .loneSurrogate rest)
      else if IsHigh unit then
        match rest with
        | '\\' :: 'u' :: e :: f :: g :: h :: more =>
          match unit? e f g h with
          | none => .error (hexFault (e :: f :: g :: h :: more))
          | some second =>
            if IsLow second then consRead (ofPair unit second) (readString more)
            else .error (.before .loneSurrogate more)
        | '\\' :: 'u' :: cut => .error (hexFault cut)
        | other => .error (pairFault other)
      else consRead (Char.ofNat unit) (readString rest)
  | '\\' :: 'u' :: cut => .error (hexFault cut)
  | '\\' :: letter :: rest =>
    match ofEscape? letter with
    | some c => consRead c (readString rest)
    | none => .error (.at .unknownEscape (letter :: rest))
  | c :: rest =>
    if c.toNat < 0x20 then .error (.before .controlCharacter rest) else consRead c (readString rest)

/-! ## Skipping -/

def skipString : List Char → Except Fault (List Char)
  | [] => .error (.before .endInString [])
  | '"' :: rest => .ok rest
  | '\\' :: [] => .error (.before .endInString [])
  | '\\' :: 'u' :: a :: b :: c :: d :: rest =>
    if (unit? a b c d).isSome then skipString rest else .error (hexFault (a :: b :: c :: d :: rest))
  | '\\' :: 'u' :: cut => .error (hexFault cut)
  | '\\' :: letter :: rest =>
    if (ofEscape? letter).isSome then skipString rest else .error (.at .unknownEscape (letter :: rest))
  | c :: rest =>
    if c.toNat < 0x20 then .error (.before .controlCharacter (c :: rest)) else skipString rest

end LogSieve.Json
