import LogSieve.Proofs.Json.Accepted
/-!
# What a text is read as

A text is read as the value that it spells, and no text is read that spells none or is nested
deeper than a reader goes (`parse_eq_ok_iff`). So the text of a value in order whose numbers are
whole is read as that value (`parseOrdered_text`), and the text of a deeper one is refused
(`parseOrdered_text_of_deep`).
-/
namespace LogSieve.Json
open Value

/-- A text ends where only white space is left. -/
theorem atEnd_eq_ok_iff {rest : List Char} : atEnd rest = .ok () ↔ Spaces rest := by
  constructor
  · intro ended
    obtain ⟨gap, spaces, parts⟩ := eq_append_skipSpace rest
    rw [atEnd] at ended
    split at ended
    · rename_i nothing
      rw [nothing, List.append_nil] at parts
      exact parts ▸ spaces
    · cases ended
  · intro spaces
    have skipped := skipSpace_append spaces []
    rw [List.append_nil] at skipped
    rw [atEnd, skipped]
    rfl

theorem readAll_eq_ok_iff {α : Type} {reader : Reader α} {text : List Char} {result : α} :
    readAll reader text = .ok result ↔ ∃ rest, reader text = .ok (result, rest) ∧ Spaces rest := by
  rw [readAll, mapError_eq_ok_iff, bind_eq_ok_iff]
  constructor
  · rintro ⟨⟨_, rest⟩, front, behind⟩
    obtain ⟨_, ended, same⟩ := bind_eq_ok_iff.1 behind
    cases same
    exact ⟨rest, front, atEnd_eq_ok_iff.1 ended⟩
  · rintro ⟨rest, front, spaces⟩
    exact ⟨(result, rest), front, bind_eq_ok_iff.2 ⟨(), atEnd_eq_ok_iff.2 spaces, rfl⟩⟩

section
variable {value : Value} {line : String}

/-- What stands between the white space of a line is taken as a whole if that is not nested too deep. -/
theorem answers_of_spelledBy (spelled : value.SpelledBy line) :
    ∃ after, Spaces after ∧ Answers (value.depth ≤ greatestDepth)
      (readValue (loopBound line.toList) greatestDepth line.toList) (value, after) := by
  obtain ⟨before, inside, after, spaces, spelled, afterSpaces, written⟩ := spelled
  have short : inside.length < loopBound line.toList := by simp [loopBound, written]; omega
  have ends : Ends after := by simpa using ends_nil.of_spaces afterSpaces
  have answers := readValue_spelled (loopBound line.toList) greatestDepth value before inside after spaces spelled
    short ends
  rw [← written] at answers
  exact ⟨after, afterSpaces, answers⟩

/-- A line is read as a value exactly if it spells that value, and that is not nested too deep. -/
theorem parse_eq_ok_iff : parse line = .ok value ↔ value.SpelledBy line ∧ value.depth ≤ greatestDepth := by
  rw [parse, readAll_eq_ok_iff]
  constructor
  · rintro ⟨after, front, afterSpaces⟩
    obtain ⟨shallow, before, inside, spaces, spelled, written⟩ := of_readValue front
    exact ⟨⟨before, inside, after, spaces, spelled, afterSpaces, written⟩, shallow⟩
  · rintro ⟨spelled, shallow⟩
    obtain ⟨after, afterSpaces, answers⟩ := answers_of_spelledBy spelled
    exact ⟨after, answers.reads shallow, afterSpaces⟩

/-- A line that spells a value nested too deep is refused for that. -/
theorem parse_of_spelledBy_of_deep (spelled : value.SpelledBy line) (deep : greatestDepth < value.depth) :
    ∃ error, parse line = .error error ∧ error.cause = .tooDeep := by
  obtain ⟨after, _, answers⟩ := answers_of_spelledBy spelled
  obtain ⟨fault, failed, cause⟩ := answers.refuses (Nat.not_le.2 deep)
  refine ⟨fault.located line.toList, ?_, cause⟩
  simp only [parse, readAll, failed, bind, Except.bind, mapError_error]

end

/-- What is read of a text is in order, and not nested deeper than a reader goes. -/
theorem of_parseOrdered {text : String} {value : Value} (read : parseOrdered text = .ok value) :
    value.InOrder ∧ value.depth ≤ greatestDepth := by
  obtain ⟨written, parsed, rfl⟩ := map_eq_ok_iff.1 read
  obtain ⟨_, shallow⟩ := parse_eq_ok_iff.1 parsed
  exact ⟨inOrder_ordered written, (depth_ordered_le written).trans shallow⟩

theorem spelledBy_text {value : Value} (whole : value.Whole) : value.SpelledBy value.text := by
  rw [Value.SpelledBy, Value.text, String.toList_ofList]
  exact padded_of (spells_write whole)

/-- The text of a legible value is read as that value. -/
theorem parseOrdered_text {value : Value} (legible : value.Legible greatestDepth) :
    parseOrdered value.text = .ok value := by
  rw [parseOrdered, parse_eq_ok_iff.2 ⟨spelledBy_text legible.whole, legible.depth_le⟩]
  exact congrArg Except.ok (ordered_of_inOrder legible.inOrder)

/-- The text of a value that is nested too deep is refused for that. -/
theorem parseOrdered_text_of_deep {value : Value} (whole : value.Whole) (deep : greatestDepth < value.depth) :
    ∃ error, parseOrdered value.text = .error error ∧ error.cause = .tooDeep := by
  obtain ⟨error, failed, cause⟩ := parse_of_spelledBy_of_deep (spelledBy_text whole) deep
  rw [parseOrdered, failed]
  exact ⟨error, rfl, cause⟩

end LogSieve.Json
