import LogSieve.Names
import LogSieve.Proofs.Lines
import Mathlib.Data.List.DropRight
import Mathlib.Data.List.Nodup
/-!
# Lists of names in one text

The names in a text are exactly the trimmed texts of its longest pieces without a comma
(`mem_entries_iff`). Where the text is cut at offsets in bytes, each offset is that of a comma or
of the end, so every cut falls between two characters (`splitByOffsets?_eq`). A list of names
comes back from the text it is written in, whatever blanks stand around them (`entries_of_holds`).
-/
namespace LogSieve.Text

/-! ## Segments -/

section
variable {α : Type} {separator : α} {list segment : List α}

/-- A piece without the separator that reaches from one separator, or the front, to the next, or the end. -/
def IsSegment (separator : α) (list segment : List α) : Prop :=
  separator ∉ segment ∧ ∃ before after, list = before ++ (segment ++ after) ∧
    (before = [] ∨ ∃ front, before = front ++ [separator]) ∧
    (after = [] ∨ ∃ back, after = separator :: back)

theorem IsSegment.append_right (inside : IsSegment separator list segment) (more : List α) :
    IsSegment separator (list ++ separator :: more) segment := by
  obtain ⟨absent, before, after, rfl, front, back⟩ := inside
  refine ⟨absent, before, after ++ separator :: more, by simp, front, .inr ?_⟩
  rcases back with rfl | ⟨back, rfl⟩
  · exact ⟨more, rfl⟩
  · exact ⟨back ++ separator :: more, rfl⟩

theorem IsSegment.append_left (inside : IsSegment separator list segment) (more : List α) :
    IsSegment separator (more ++ separator :: list) segment := by
  obtain ⟨absent, before, after, rfl, front, back⟩ := inside
  refine ⟨absent, more ++ separator :: before, after, by simp, .inr ?_, back⟩
  rcases front with rfl | ⟨front, rfl⟩
  · exact ⟨more, rfl⟩
  · exact ⟨more ++ separator :: front, by simp⟩

variable [DecidableEq α]

theorem isSegment_of_mem (member : segment ∈ segments separator list) : IsSegment separator list segment := by
  induction size : list.length using Nat.strong_induction_on generalizing list with
  | h length ih =>
    by_cases holds : separator ∈ list
    · obtain ⟨front, back, rfl⟩ := List.append_of_mem holds
      rw [List.length_append, List.length_cons] at size
      rw [segments_append_separator, List.mem_append] at member
      rcases member with member | member
      · exact (ih front.length (by omega) member rfl).append_right back
      · exact (ih back.length (by omega) member rfl).append_left front
    · rw [segments_of_not_mem holds, List.mem_singleton] at member
      exact ⟨member ▸ holds, [], [], by simp [member], .inl rfl, .inl rfl⟩

/-- The segments are exactly the longest pieces without the separator. -/
theorem mem_segments_iff : segment ∈ segments separator list ↔ IsSegment separator list segment := by
  refine ⟨isSegment_of_mem, ?_⟩
  rintro ⟨absent, before, after, rfl, front, back⟩
  have last : segment ∈ segments separator (segment ++ after) := by
    rcases back with rfl | ⟨back, rfl⟩
    · rw [List.append_nil, segments_of_not_mem absent]
      exact List.mem_singleton_self segment
    · rw [segments_append_separator, segments_of_not_mem absent]
      exact List.mem_cons_self
  rcases front with rfl | ⟨front, rfl⟩
  · exact last
  · rw [List.append_assoc, List.singleton_append, segments_append_separator]
    exact List.mem_append_right _ last

end

/-! ## Trimming -/

/-- The text has nothing but blanks in it. -/
def Blanks (text : List Char) : Prop := ∀ c ∈ text, isBlank c = true

/-- The text neither begins nor ends with a blank. -/
def Trimmed (text : List Char) : Prop :=
  (∀ c ∈ text.head?, isBlank c = false) ∧ ∀ c ∈ text.getLast?, isBlank c = false

instance (text : List Char) : Decidable (Blanks text) := List.decidableBAll _ text

instance (text : List Char) : Decidable (Trimmed text) :=
  @instDecidableAnd _ _ (Option.decidableForallMem text.head?) (Option.decidableForallMem text.getLast?)

/-- The text is the other one with blanks in front of it and behind it. -/
def TrimsTo (text trimmed : List Char) : Prop :=
  Trimmed trimmed ∧ ∃ before after, Blanks before ∧ Blanks after ∧ text = before ++ (trimmed ++ after)

theorem Blanks.no_comma {text : List Char} (blanks : Blanks text) : ',' ∉ text :=
  fun member => absurd (blanks ',' member) (by decide)

section
variable {text trimmed : List Char}

theorem trimEnd_eq (text : List Char) : trimEnd text = text.rdropWhile isBlank := rfl

theorem trimsTo_trim (text : List Char) : TrimsTo text (trim text) := by
  rw [trim, trimEnd_eq]
  refine ⟨⟨?_, ?_⟩, text.takeWhile isBlank, (text.dropWhile isBlank).rtakeWhile isBlank, ?_, ?_, ?_⟩
  · intro c first
    obtain ⟨more, whole⟩ := List.rdropWhile_prefix isBlank (text.dropWhile isBlank)
    have front := List.head?_dropWhile_not isBlank text
    rw [← whole, List.head?_append_of_ne_nil _ (by rintro nothing; simp [nothing] at first), first] at front
    exact front
  · intro c last
    obtain ⟨some, rfl⟩ := List.mem_getLast?_eq_getLast last
    exact Bool.eq_false_of_not_eq_true (List.rdropWhile_last_not isBlank _ some)
  · exact List.all_eq_true.1 List.all_takeWhile
  · exact fun c => List.mem_rtakeWhile_imp
  · rw [List.rdropWhile_append_rtakeWhile, List.takeWhile_append_dropWhile]

theorem trim_of_trimsTo (trims : TrimsTo text trimmed) : trim text = trimmed := by
  obtain ⟨⟨front, back⟩, before, after, blanksBefore, blanksAfter, rfl⟩ := trims
  rw [trim, List.dropWhile_append_of_pos blanksBefore]
  cases trimmed with
  | nil =>
    rw [List.nil_append, List.dropWhile_eq_nil_iff.2 blanksAfter]
    rfl
  | cons c rest =>
    have solid := front c rfl
    have kept : (c :: rest).rdropWhile isBlank = c :: rest := by
      refine List.rdropWhile_eq_self_iff.2 fun some => ?_
      simp [back _ (List.getLast?_eq_some_getLast some)]
    rw [List.cons_append, List.dropWhile_cons_of_neg (by simp [solid]), ← List.cons_append, trimEnd,
      List.reverse_append, List.dropWhile_append_of_pos fun d member => blanksAfter d (List.mem_reverse.1 member)]
    exact kept

end

end LogSieve.Text

namespace LogSieve.Names
open Text

/-! ## The entries of a text -/

theorem mem_entries_iff {text : List Char} {name : String} :
    name ∈ entries text ↔ name ≠ "" ∧ ∃ segment, IsSegment ',' text segment ∧ TrimsTo segment name.toList := by
  simp only [entries, List.mem_map, List.mem_filter, decide_eq_true_eq]
  constructor
  · rintro ⟨_, ⟨⟨segment, member, rfl⟩, some⟩, rfl⟩
    refine ⟨?_, segment, mem_segments_iff.1 member, ?_⟩
    · rwa [Ne, ← String.toList_eq_nil_iff, String.toList_ofList]
    · rw [String.toList_ofList]
      exact trimsTo_trim segment
  · rintro ⟨some, segment, inside, trims⟩
    refine ⟨name.toList, ⟨⟨segment, mem_segments_iff.2 inside, trim_of_trimsTo trims⟩, ?_⟩, String.ofList_toList⟩
    rwa [Ne, String.toList_eq_nil_iff]

theorem mem_split_iff {text name : String} : name ∈ split text ↔ name ∈ entries text.toList := mem_ofList

theorem entries_append_comma (before after : List Char) :
    entries (before ++ ',' :: after) = entries before ++ entries after := by
  simp only [entries, segments_append_separator, List.map_append, List.filter_append]

/-- An entry without a comma gives the name in it, or no name if there is none. -/
theorem entries_of_trimsTo {entry trimmed : List Char} (single : ',' ∉ entry) (trims : TrimsTo entry trimmed) :
    entries entry = if trimmed = [] then [] else [String.ofList trimmed] := by
  rw [entries, segments_of_not_mem single, List.map_singleton, trim_of_trimsTo trims]
  split <;> simp_all

/-! ## Order -/

/-- A set of names in strictly ascending order, so without repetition. -/
def Ascending (names : Names) : Prop := names.Pairwise (· < ·)

theorem ascending_insert {names : Names} (ascending : Ascending names) (name : String) :
    Ascending (insert names name) := by
  induction names with
  | nil => exact List.pairwise_singleton _ name
  | cons n rest ih =>
    obtain ⟨least, others⟩ := List.pairwise_cons.1 ascending
    rw [insert]
    split
    · rename_i below
      refine List.pairwise_cons.2 ⟨?_, ascending⟩
      intro other member
      rcases List.mem_cons.1 member with rfl | member
      · exact below
      · exact lt_trans below (least other member)
    split
    · exact ascending
    · rename_i notBelow differs
      refine List.pairwise_cons.2 ⟨?_, ih others⟩
      intro other member
      rcases mem_insert.1 member with rfl | member
      · exact lt_of_le_of_ne (not_lt.1 notBelow) (Ne.symm differs)
      · exact least other member

theorem ascending_insertAll {names : Names} (ascending : Ascending names) (more : List String) :
    Ascending (insertAll names more) := by
  induction more generalizing names with
  | nil => exact ascending
  | cons name rest ih => exact ih (ascending_insert ascending name)

theorem ascending_ofList (names : List String) : Ascending (ofList names) :=
  ascending_insertAll List.Pairwise.nil names

/-- Sets of names are the same if the same names are in them. -/
theorem ext_of_ascending {names others : Names} (ascending : Ascending names) (othersAscending : Ascending others)
    (same : ∀ name, name ∈ names ↔ name ∈ others) : names = others := by
  have perm : names.Perm others :=
    (List.perm_ext_iff_of_nodup (ascending.imp fun below => ne_of_lt below)
      (othersAscending.imp fun below => ne_of_lt below)).2 same
  exact perm.eq_of_pairwise (fun a b _ _ below above => absurd below (lt_asymm above)) ascending othersAscending

/-- The names of two texts with a comma between them are those of both. -/
theorem split_append_comma (before after : String) :
    split (before ++ "," ++ after) = (split before).insertAll (split after) := by
  refine ext_of_ascending (ascending_ofList _) (ascending_insertAll (ascending_ofList _) _) fun name => ?_
  have whole : (before ++ "," ++ after).toList = before.toList ++ ',' :: after.toList := by simp
  rw [mem_split_iff, whole, entries_append_comma, List.mem_append, mem_insertAll, mem_split_iff, mem_split_iff, or_comm]

/-! ## Names written as a list -/

/-- A name that can be an entry of a list: it is not empty, holds no comma, and neither begins nor ends with a blank. -/
def Listable (name : String) : Prop := name ≠ "" ∧ ',' ∉ name.toList ∧ Trimmed name.toList

instance (name : String) : Decidable (Listable name) := inferInstanceAs (Decidable (_ ∧ _ ∧ _))

/-- Entries that hold the names in their order, each with blanks around it, and nothing else than blanks
    besides. -/
inductive Holds : (entries names : List String) → Prop where
  | nil : Holds [] []
  | blank {entry : String} {entries names : List String} (blanks : Blanks entry.toList)
      (more : Holds entries names) : Holds (entry :: entries) names
  | name {before name after : String} {entries names : List String} (blanksBefore : Blanks before.toList)
      (blanksAfter : Blanks after.toList) (more : Holds entries names) :
      Holds ((before ++ name ++ after) :: entries) (name :: names)

theorem entries_intercalate_cons (entry : String) (rest : List String) :
    entries (",".intercalate (entry :: rest)).toList =
      entries entry.toList ++ entries (",".intercalate rest).toList := by
  cases rest with
  | nil => simp [entries, segments, trim, trimEnd]
  | cons next more =>
    rw [String.intercalate_cons_cons, String.toList_append, String.toList_append, List.append_assoc]
    exact entries_append_comma _ _

theorem entries_of_holds {written names : List String} (holds : Holds written names)
    (listable : ∀ name ∈ names, Listable name) : entries (",".intercalate written).toList = names := by
  induction holds with
  | nil => rfl
  | @blank entry _ _ blanks _ ih =>
    have trims : TrimsTo entry.toList [] := ⟨⟨by simp, by simp⟩, entry.toList, [], blanks, by simp [Blanks], by simp⟩
    rw [entries_intercalate_cons, entries_of_trimsTo blanks.no_comma trims, ih listable]
    rfl
  | @name before name after _ _ blanksBefore blanksAfter _ ih =>
    obtain ⟨⟨some, single, trimmed⟩, others⟩ := List.forall_mem_cons.1 listable
    have whole : (before ++ name ++ after).toList = before.toList ++ (name.toList ++ after.toList) := by simp
    have noComma : ',' ∉ (before ++ name ++ after).toList := by
      simp [whole, single, blanksBefore.no_comma, blanksAfter.no_comma]
    have trims : TrimsTo (before ++ name ++ after).toList name.toList :=
      ⟨trimmed, before.toList, after.toList, blanksBefore, blanksAfter, whole⟩
    have named : name.toList ≠ [] := by rwa [Ne, String.toList_eq_nil_iff]
    rw [entries_intercalate_cons, entries_of_trimsTo noComma trims, ih others, if_neg named, String.ofList_toList]
    rfl

end LogSieve.Names

/-! ## Cutting at offsets -/

namespace LogSieve.Files

theorem encode_append (before after : String) :
    encode (before ++ after) = encode before ++ encode after := by
  simp [encode_eq]

theorem length_encode (text : String) : (encode text).length = text.utf8ByteSize := by
  rw [encode, ByteArray.toList, toList_loop]
  simp


/-- The byte of a comma. -/
def comma : UInt8 := 0x2C

theorem encode_comma : encode "," = [comma] := by rw [encode_eq]; rfl

/-- The byte of a comma is in no other character. -/
theorem idxsOf_comma_of_not_mem {text : String} (absent : ',' ∉ text.toList) (start : Nat) :
    (encode text).idxsOf comma start = [] := by
  refine List.idxsOf_eq_nil_iff.2 fun byte member => beq_false_of_ne ?_
  rintro rfl
  rw [encode_eq, List.mem_flatMap] at member
  obtain ⟨c, inside, member⟩ := member
  have same : c = ',' := Char.toNat_inj.1 (toNat_eq_of_mem_utf8EncodeChar member (by decide)).symm
  exact absent (same ▸ inside)

/-- The first comma of a text stands where the characters before it end. -/
theorem idxsOf_comma_append {before : String} (absent : ',' ∉ before.toList) (after : String) (start : Nat) :
    (encode (before ++ ("," ++ after))).idxsOf comma start =
      (start + before.utf8ByteSize) :: (encode after).idxsOf comma (start + before.utf8ByteSize + 1) := by
  rw [encode_append, List.idxsOf_append, idxsOf_comma_of_not_mem absent, List.nil_append, length_encode,
    encode_append, encode_comma, List.singleton_append, List.idxsOf_cons, beq_self_eq_true, if_pos rfl]

end LogSieve.Files

namespace LogSieve.Text

/-- The part of a text from one offset in bytes up to another. There is none where an offset lies beyond the end or
    inside a character, or where the second lies before the first. -/
def slice? (text : String) (start stop : Nat) : Option String := do
  let start ← text.pos? ⟨start⟩
  let stop ← text.pos? ⟨stop⟩
  (text.slice? start stop).map String.Slice.copy

theorem pos?_eq_some {text : String} {offset : Nat} (valid : String.Pos.Raw.IsValid text ⟨offset⟩) :
    text.pos? ⟨offset⟩ = some (text.pos ⟨offset⟩ valid) := by
  have inside : String.Pos.Raw.isValidForSlice text.toSlice ⟨offset⟩ = true := by
    simpa using valid
  rw [String.pos?, String.Slice.pos?, dif_pos inside]
  rfl

/-- Between two offsets at the ends of characters stands what stands between them. -/
theorem slice?_append (before inside after : String) :
    slice? (before ++ (inside ++ after)) before.utf8ByteSize (before.utf8ByteSize + inside.utf8ByteSize) =
      some inside := by
  have startValid : String.Pos.Raw.IsValid (before ++ (inside ++ after)) ⟨before.utf8ByteSize⟩ :=
    String.Pos.Raw.isValid_iff_exists_append.2 ⟨before, inside ++ after, rfl, rfl⟩
  have stopValid :
      String.Pos.Raw.IsValid (before ++ (inside ++ after)) ⟨before.utf8ByteSize + inside.utf8ByteSize⟩ :=
    String.Pos.Raw.isValid_iff_exists_append.2 ⟨before ++ inside, after, by rw [String.append_assoc],
      by simp [String.Pos.Raw.ext_iff]⟩
  have ordered : String.pos _ _ startValid ≤ String.pos _ _ stopValid := by
    simp [String.Pos.le_iff, String.Pos.Raw.le_iff]
  simp only [slice?, pos?_eq_some startValid, pos?_eq_some stopValid, String.slice?, dif_pos ordered,
    Option.bind_eq_bind, Option.bind_some, Option.map_some, Option.some.injEq]
  rw [← String.toByteArray_inj, String.toByteArray_copy_slice, String.offset_pos, String.offset_pos,
    String.toByteArray_append, String.toByteArray_append, ← String.size_toByteArray, ← String.size_toByteArray]
  have front := @ByteArray.extract_append_size_add before.toByteArray (inside.toByteArray ++ after.toByteArray) 0
    inside.toByteArray.size
  rw [Nat.add_zero] at front
  rw [front, ByteArray.extract_append_eq_left rfl]

/-- A text cannot be cut inside a character. -/
example : slice? "é" 0 1 = none := rfl

end LogSieve.Text

namespace LogSieve.Names
open Text

/-- Adds the names in a text, which is cut from `start` up to the first offset, from behind that up to the next, and
    so on. None where a cut cannot be made. -/
def scan? (text : String) (names : Names) (start : Nat) : (stops : List Nat) → Option Names
  | [] => some names
  | stop :: stops => do
    let piece ← slice? text start stop
    let name := String.ofList (trim piece.toList)
    scan? text (if name = "" then names else names.insert name) (stop + 1) stops

/-- The names in a text, which is cut at the offsets of its commas and at its end. -/
def splitByOffsets? (text : String) : Option Names :=
  let bytes := Files.encode text
  scan? text [] 0 (bytes.idxsOf Files.comma ++ [bytes.length])

theorem insertAll_append (names : Names) (more others : List String) :
    names.insertAll (more ++ others) = (names.insertAll more).insertAll others := List.foldl_append

/-- A piece without a comma adds the name in it, if there is one. -/
theorem insertAll_entries {piece : String} (single : ',' ∉ piece.toList) (names : Names) :
    names.insertAll (entries piece.toList) =
      if String.ofList (trim piece.toList) = "" then names else names.insert (String.ofList (trim piece.toList)) := by
  rw [entries_of_trimsTo single (trimsTo_trim _)]
  by_cases nothing : trim piece.toList = []
  · simp [nothing, insertAll]
  · simp [nothing, insertAll]

theorem scan?_cons {text piece : String} {names : Names} {start stop : Nat} (stops : List Nat)
    (cut : slice? text start stop = some piece) (single : ',' ∉ piece.toList) :
    scan? text names start (stop :: stops) = scan? text (names.insertAll (entries piece.toList)) (stop + 1) stops := by
  rw [insertAll_entries single, scan?, cut]
  rfl

/-- The cuts from behind a part that was read add the names in the rest. -/
theorem scan?_eq (before after : String) (names : Names) :
    scan? (before ++ after) names before.utf8ByteSize
        ((Files.encode after).idxsOf Files.comma before.utf8ByteSize ++ [(before ++ after).utf8ByteSize]) =
      some (names.insertAll (entries after.toList)) := by
  induction size : after.toList.length using Nat.strong_induction_on generalizing before after names with
  | h length ih =>
    by_cases holds : ',' ∈ after.toList
    · obtain ⟨front, back, parts, single⟩ := List.eq_append_cons_of_mem holds
      obtain ⟨piece, rfl⟩ : ∃ piece : String, piece.toList = front := ⟨.ofList front, String.toList_ofList⟩
      obtain ⟨rest, rfl⟩ : ∃ rest : String, rest.toList = back := ⟨.ofList back, String.toList_ofList⟩
      obtain rfl : after = piece ++ ("," ++ rest) := by
        rw [← String.toList_inj, parts]
        simp
      have shorter : rest.toList.length < length := by
        rw [← size]
        simp
        omega
      have cut := slice?_append before piece ("," ++ rest)
      have behind : (before ++ (piece ++ ",")).utf8ByteSize = before.utf8ByteSize + piece.utf8ByteSize + 1 := by
        rw [String.utf8ByteSize_append, String.utf8ByteSize_append, Nat.add_assoc]
        rfl
      have whole : before ++ (piece ++ ("," ++ rest)) = (before ++ (piece ++ ",")) ++ rest := by
        simp [String.append_assoc]
      have further := ih _ shorter (before ++ (piece ++ ",")) rest (names.insertAll (entries piece.toList)) rfl
      rw [behind, ← whole] at further
      rw [Files.idxsOf_comma_append single, List.cons_append, scan?_cons _ cut single, further, parts,
        entries_append_comma, insertAll_append]
    · have cut := slice?_append before after ""
      rw [String.append_empty, ← String.utf8ByteSize_append] at cut
      rw [Files.idxsOf_comma_of_not_mem holds, List.nil_append, scan?_cons _ cut holds, scan?]

theorem splitByOffsets?_eq (text : String) : splitByOffsets? text = some (split text) := by
  have whole := scan?_eq "" text []
  rw [String.empty_append, ← Files.length_encode text] at whole
  exact whole

/-- The names in a text are the trimmed texts of its segments, other than the empty one. The text can be cut at every
    offset that this takes. A comma between two texts joins their names, and names that were written as a list are
    the names in it. -/
theorem split_exact :
    (∀ text name : String, name ∈ split text ↔
      name ≠ "" ∧ ∃ segment, IsSegment ',' text.toList segment ∧ TrimsTo segment name.toList) ∧
    (∀ text, splitByOffsets? text = some (split text)) ∧
    (∀ before after, split (before ++ "," ++ after) = (split before).insertAll (split after)) ∧
    ∀ written names, Holds written names → (∀ name ∈ names, Listable name) →
      split (",".intercalate written) = ofList names := by
  refine ⟨fun text name => mem_split_iff.trans mem_entries_iff, splitByOffsets?_eq, split_append_comma, ?_⟩
  intro written names holds listable
  rw [split, entries_of_holds holds listable]

/-- A name twice, with blanks beyond ASCII around it, beside an entry of blanks and an empty one. -/
theorem split_exact_blanks :
    let written := ["\u3000" ++ "é" ++ " ", "\t", "" ++ "a b" ++ "", "", "" ++ "é" ++ "\n"]
    let names := ["é", "a b", "é"]
    Holds written names ∧ (∀ name ∈ names, Listable name) ∧ ",".intercalate written = "\u3000é ,\t,a b,,é\n" ∧
      split (",".intercalate written) = ["a b", "é"] := by
  intro written names
  have holds : Holds written names :=
    .name (by decide) (by decide) (.blank (by decide) (.name (by decide) (by decide)
      (.blank (by decide) (.name (by decide) (by decide) .nil))))
  have listable : ∀ name ∈ names, Listable name := by decide
  exact ⟨holds, listable, by decide, split_exact.2.2.2 written names holds listable⟩

end LogSieve.Names
