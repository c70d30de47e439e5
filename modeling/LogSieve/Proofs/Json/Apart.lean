import LogSieve.Proofs.Json.Skipped
/-!
# One reading at most

What is run over depends on the text alone, so a text has one value at its front at most
(`shaped_unique`). The parts between its commas are determined with it, whatever they are, as
long as each can be told from the front of a text (`Apart.separated_unique`).
-/
namespace LogSieve.Json

section
variable {before after text other rest more : List Char}

/-- A text begins with one string at most. -/
theorem shapedString_unique (shaped : ShapedString text) (otherShaped : ShapedString other)
    (same : text ++ rest = other ++ more) : text = other ∧ rest = more := by
  obtain ⟨inside, shaped, rfl⟩ := shaped
  obtain ⟨otherInside, otherShaped, rfl⟩ := otherShaped
  simp only [List.cons_append, List.append_assoc, List.nil_append, List.cons.injEq, true_and] at same
  have skipped := skipString_shaped shaped rest
  rw [same, skipString_shaped otherShaped] at skipped
  cases skipped
  rw [List.append_cancel_right same]
  exact ⟨rfl, rfl⟩

theorem eq_of_spaces {c d : Char} (spaces : Spaces before) (afterSpaces : Spaces after) (solid : isSpace c = false)
    (otherSolid : isSpace d = false) (same : before ++ c :: rest = after ++ d :: more) : c = d ∧ rest = more := by
  have fronts := congrArg skipSpace same
  rw [skipSpace_append spaces, skipSpace_append afterSpaces, skipSpace_cons solid, skipSpace_cons otherSolid] at fronts
  exact List.cons.inj fronts

theorem Begins.eq_of_spaces (begins : Begins text) (otherBegins : Begins other) (spaces : Spaces before)
    (afterSpaces : Spaces after) (same : before ++ (text ++ rest) = after ++ (other ++ more)) :
    text ++ rest = other ++ more := by
  have fronts := congrArg skipSpace same
  rwa [skipSpace_append spaces, skipSpace_append afterSpaces, skipSpace_of_begins begins,
    skipSpace_of_begins otherBegins] at fronts

/-- A text has one value at its front at most, where a value can end. -/
theorem shaped_unique (shaped : Shaped text) (otherShaped : Shaped other) (ends : Ends rest) (moreEnds : Ends more)
    (same : text ++ rest = other ++ more) : text = other ∧ rest = more := by
  have skipped := skip_shaped spaces_nil shaped ends
  rw [same, skip_shaped spaces_nil otherShaped moreEnds] at skipped
  cases skipped
  exact ⟨List.append_cancel_right same, rfl⟩

theorem writtenAs_unique {member another : Member} (fine : member.WellFormed) (otherFine : another.WellFormed)
    (written : member.WrittenAs text) (otherWritten : another.WrittenAs other) (ends : Ends rest)
    (moreEnds : Ends more) (same : text ++ rest = other ++ more) : member = another ∧ rest = more := by
  obtain ⟨key, value⟩ := member
  obtain ⟨otherKey, otherValue⟩ := another
  obtain ⟨gap, space, gapSpaces, spaceSpaces, rfl⟩ := written
  obtain ⟨otherGap, otherSpace, otherGapSpaces, otherSpaceSpaces, rfl⟩ := otherWritten
  simp only [List.append_assoc, List.cons_append] at same
  obtain ⟨rfl, behind⟩ := shapedString_unique fine.key otherFine.key same
  obtain ⟨_, values⟩ := eq_of_spaces gapSpaces otherGapSpaces rfl rfl behind
  have fronts := (begins_of_shaped fine.value).eq_of_spaces (begins_of_shaped otherFine.value) spaceSpaces
    otherSpaceSpaces values
  obtain ⟨rfl, tails⟩ := shaped_unique fine.value otherFine.value ends moreEnds fronts
  exact ⟨rfl, tails⟩

end

/-- The good parts can be told from the front of a text, where a value can end. -/
structure Apart {α : Type} (good : α → Prop) (holds : α → List Char → Prop) : Prop where
  begins : ∀ {part text}, good part → holds part text → Begins text
  unique : ∀ {part another text other rest more}, good part → good another → holds part text → holds another other →
    Ends rest → Ends more → text ++ rest = other ++ more → part = another ∧ rest = more

theorem apart_items : Apart Shaped Eq where
  begins := by
    rintro item _ shaped rfl
    exact begins_of_shaped shaped
  unique := by
    rintro item another _ _ rest more shaped otherShaped rfl rfl ends moreEnds same
    exact shaped_unique shaped otherShaped ends moreEnds same

theorem apart_members : Apart Member.WellFormed Member.WrittenAs where
  begins fine written := begins_of_writtenAs fine.key written
  unique := writtenAs_unique

section
variable {α : Type} {good : α → Prop} {holds : α → List Char → Prop} {parts others : List α} {part another : α}
  {close : Char} {before after text other rest more : List Char}

/-- No part begins where the closing character stands. -/
theorem Apart.not_closed (apart : Apart good holds) (closes : Closes close) (spaces : Spaces before)
    (afterSpaces : Spaces after) (fine : good part) (held : holds part text) :
    before ++ close :: rest ≠ after ++ (text ++ more) := by
  intro same
  have begins := apart.begins fine held
  obtain ⟨c, letters, rfl, solid, _⟩ := apart.begins fine held
  exact begins.ne_close closes (eq_of_spaces spaces afterSpaces closes.isSpace solid same).1.symm

theorem Apart.unique_of_spaces (apart : Apart good holds) (fine : good part) (otherFine : good another)
    (spaces : Spaces before) (afterSpaces : Spaces after) (held : holds part text) (otherHeld : holds another other)
    (ends : Ends rest) (moreEnds : Ends more) (same : before ++ (text ++ rest) = after ++ (other ++ more)) :
    part = another ∧ rest = more :=
  apart.unique fine otherFine held otherHeld ends moreEnds
    ((apart.begins fine held).eq_of_spaces (apart.begins otherFine otherHeld) spaces afterSpaces same)

/-- The parts up to the closing character can be told from the front of a text, if each of them can. -/
theorem Apart.separated_unique (apart : Apart good holds) (closes : Closes close) {first : Bool}
    (fine : ∀ part ∈ parts, good part) (otherFine : ∀ part ∈ others, good part)
    (separated : Separated close holds first parts text) (otherSeparated : Separated close holds first others other)
    (same : text ++ rest = other ++ more) : parts = others ∧ rest = more := by
  -- Either both texts end here or both go on, as the closing character is no comma and begins no part.
  induction separated generalizing others other with
  | ends spaces =>
    cases otherSeparated with
    | ends otherSpaces =>
      simp only [List.append_assoc, List.singleton_append] at same
      exact ⟨rfl, (eq_of_spaces spaces otherSpaces closes.isSpace closes.isSpace same).2⟩
    | first otherSpaces held =>
      simp only [List.append_assoc] at same
      exact absurd same (apart.not_closed closes spaces otherSpaces (otherFine _ List.mem_cons_self) held)
    | comma otherSpaces =>
      simp only [List.append_assoc, List.cons_append, List.nil_append] at same
      exact absurd (eq_of_spaces spaces otherSpaces closes.isSpace rfl same).1.symm closes.ne_comma
  | first spaces held behind ih =>
    obtain ⟨partFine, partsFine⟩ := List.forall_mem_cons.1 fine
    simp only [List.append_assoc] at same
    cases otherSeparated with
    | ends otherSpaces =>
      simp only [List.append_assoc] at same
      exact absurd same.symm (apart.not_closed closes otherSpaces spaces partFine held)
    | first otherSpaces otherHeld otherBehind =>
      obtain ⟨anotherFine, othersFine⟩ := List.forall_mem_cons.1 otherFine
      simp only [List.append_assoc] at same
      obtain ⟨rfl, tails⟩ := apart.unique_of_spaces partFine anotherFine spaces otherSpaces held otherHeld
        (behind.ends_append closes _) (otherBehind.ends_append closes _) same
      obtain ⟨rfl, rests⟩ := ih partsFine othersFine otherBehind tails
      exact ⟨rfl, rests⟩
  | comma gapSpaces spaces held behind ih =>
    obtain ⟨partFine, partsFine⟩ := List.forall_mem_cons.1 fine
    simp only [List.append_assoc, List.cons_append] at same
    cases otherSeparated with
    | ends otherSpaces =>
      simp only [List.append_assoc, List.singleton_append] at same
      exact absurd (eq_of_spaces gapSpaces otherSpaces rfl closes.isSpace same).1 closes.ne_comma
    | comma otherGapSpaces otherSpaces otherHeld otherBehind =>
      obtain ⟨anotherFine, othersFine⟩ := List.forall_mem_cons.1 otherFine
      simp only [List.append_assoc, List.cons_append] at same
      obtain ⟨_, fronts⟩ := eq_of_spaces gapSpaces otherGapSpaces rfl rfl same
      obtain ⟨rfl, tails⟩ := apart.unique_of_spaces partFine anotherFine spaces otherSpaces held otherHeld
        (behind.ends_append closes _) (otherBehind.ends_append closes _) fronts
      obtain ⟨rfl, rests⟩ := ih partsFine othersFine otherBehind tails
      exact ⟨rfl, rests⟩

end

end LogSieve.Json
