import LogSieve.Lines
import LogSieve.Proofs.Json.Printer
import Mathlib.Data.List.Basic
import Mathlib.Data.String.Basic
/-!
# Lines written and read

Every byte of a text without control characters is at least 0x20 (`le_of_mem_encode`), so such a
text has no line end among its bytes. Texts of which each was written as a line are read back
as the lines they are (`split_flatMap_written`).
-/
namespace LogSieve

/-! ## Texts as bytes -/

namespace Files

theorem toList_loop (bytes : ByteArray) (i : Nat) (read : List UInt8) :
    ByteArray.toList.loop bytes i read = read.reverse ++ bytes.data.toList.drop i := by
  induction i, read using ByteArray.toList.loop.induct bytes with
  | case1 i read below ih =>
    have within : i < bytes.data.toList.length := by simpa using below
    have next : bytes.get! i = bytes.data.toList[i] := by
      simp only [ByteArray.get!, Array.getElem_toList]
      exact getElem!_pos bytes.data i (by simpa using below)
    rw [ByteArray.toList.loop, if_pos below, ih, List.drop_eq_getElem_cons within, next]
    simp
  | case2 i read past =>
    have beyond : bytes.data.toList.length ≤ i := by simpa using past
    rw [ByteArray.toList.loop, if_neg past]
    simp [List.drop_eq_nil_of_le beyond]

theorem encode_eq (text : String) : encode text = text.toList.flatMap String.utf8EncodeChar := by
  rw [encode, ByteArray.toList, toList_loop, String.toUTF8_eq_toByteArray, ← String.utf8Encode_toList]
  simp [List.utf8Encode]

theorem decode_encode (text : String) : decode (encode text) = .ok text := by
  have bytes : (⟨(encode text).toArray⟩ : ByteArray) = text.toByteArray := by
    rw [encode_eq, ← String.utf8Encode_toList]
    apply ByteArray.ext
    simp [List.utf8Encode]
  rw [decode, bytes, String.fromUTF8?, dif_pos text.isValidUTF8]
  rfl

/-- A byte below 128 is a character of its own. -/
theorem toNat_eq_of_mem_utf8EncodeChar {c : Char} {byte : UInt8} (member : byte ∈ String.utf8EncodeChar c)
    (small : byte.toNat < 0x80) : byte.toNat = c.toNat := by
  have value : c.val.toNat = c.toNat := rfl
  unfold String.utf8EncodeChar at member
  simp only [value] at member
  -- A character below 128 is its own byte; every byte of another has its highest bit set.
  split_ifs at member <;> simp only [List.mem_cons, List.not_mem_nil, or_false] at member
  · subst member
    simp only [UInt8.toNat_ofNat']
    omega
  all_goals
    rcases member with rfl | rfl | rfl | rfl <;> simp only [UInt8.toNat_ofNat'] at small <;> omega

theorem le_of_mem_utf8EncodeChar {c : Char} (least : 0x20 ≤ c.toNat) {byte : UInt8}
    (member : byte ∈ String.utf8EncodeChar c) : 0x20 ≤ byte.toNat := by
  by_cases small : byte.toNat < 0x80
  · rw [toNat_eq_of_mem_utf8EncodeChar member small]
    exact least
  · omega

theorem le_of_mem_encode {text : String} (printable : Json.Printable text.toList) {byte : UInt8}
    (member : byte ∈ encode text) : 0x20 ≤ byte.toNat := by
  rw [encode_eq] at member
  obtain ⟨c, inside, member⟩ := List.mem_flatMap.1 member
  exact le_of_mem_utf8EncodeChar (printable c inside) member

end Files

/-! ## Lines that were written -/

namespace Lines

/-- A line that was written is the first that is read, as it was. -/
theorem split_written {text : String} (printable : Json.Printable text.toList) (content : Bytes) :
    split (written text ++ content) = Files.encode text :: split content := by
  have absent {byte : UInt8} (small : byte.toNat < 0x20) : byte ∉ Files.encode text :=
    fun member => absurd (Files.le_of_mem_encode printable member) (by omega)
  have pieces : Text.segments lineFeed (written text ++ content) =
      Files.encode text :: Text.segments lineFeed content := by
    rw [written, List.append_assoc, List.singleton_append, Text.segments_append_separator,
      Text.segments_of_not_mem (absent (by decide)), List.singleton_append]
  have kept : withoutReturn (Files.encode text) = Files.encode text := by
    rw [withoutReturn, if_neg]
    exact fun last => absent (by decide) (List.mem_of_getLast? last)
  have more := Text.segments_ne_nil lineFeed content
  have front : ended (written text ++ content) = Files.encode text :: ended content := by
    simp [ended, pieces, List.dropLast_cons_of_ne_nil more, kept]
  have back : unended (written text ++ content) = unended content := by
    simp only [unended, pieces]
    exact List.getLast_cons more
  rw [split, front, back, List.cons_append, split]

theorem split_flatMap_written {texts : List String} (printable : ∀ text ∈ texts, Json.Printable text.toList) :
    split (texts.flatMap written) = texts.map Files.encode := by
  induction texts with
  | nil => rfl
  | cons text rest ih =>
    obtain ⟨first, others⟩ := List.forall_mem_cons.1 printable
    rw [List.flatMap_cons, split_written first, ih others, List.map_cons]

/-! ## Lines that are not blank -/

/-- The bytes of a line are those of a text of nothing but blanks. -/
def Blank (bytes : Bytes) : Prop := ∃ text, Files.decode bytes = .ok text ∧ IsBlank text

theorem blank_of_decode {bytes : Bytes} {text : String} (decoded : Files.decode bytes = .ok text) :
    Blank bytes ↔ IsBlank text := by
  simp [Blank, decoded]

theorem not_blank_of_decode {bytes : Bytes} {fault : FileFault} (decoded : Files.decode bytes = .error fault) :
    ¬ Blank bytes := by
  simp [Blank, decoded]

instance (bytes : Bytes) : Decidable (Blank bytes) :=
  match decoded : Files.decode bytes with
  | .ok _ => decidable_of_iff _ (blank_of_decode decoded).symm
  | .error _ => .isFalse (not_blank_of_decode decoded)

/-- The lines of a file other than the blank ones. -/
def filled (content : Bytes) : List Bytes := (split content).filter (¬ Blank ·)

end Lines
end LogSieve
