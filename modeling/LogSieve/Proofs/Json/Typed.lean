import LogSieve.Json.Typed
import LogSieve.Proofs.Json.Accepted
import LogSieve.Proofs.Json.Shape
/-!
# Values of a wanted type

A reader of one type takes the texts for the values of that type and no others (`Takes`),
whether it reads a boolean, a string or a whole number.
-/
namespace LogSieve.Json

/-- The reader takes a text for a result wherever a value can end, with the white space in front of it, and takes
    nothing else. -/
structure Takes {α : Type} (reader : Reader α) (spells : α → List Char → Prop) : Prop where
  reads : ∀ {before text rest result}, Spaces before → spells result text → Ends rest →
    reader (before ++ (text ++ rest)) = .ok (result, rest)
  spelled : ∀ {text rest result}, reader text = .ok (result, rest) →
    ∃ before inside, Spaces before ∧ spells result inside ∧ text = before ++ (inside ++ rest)

section
variable {α β : Type} {reader : Reader α} {spells : α → List Char → Prop}

/-- What is made of a result has the texts of that result. -/
theorem Takes.map (takes : Takes reader spells) (f : α → β) :
    Takes (fun text => (reader text).map fun read => (f read.1, read.2))
      (fun result text => ∃ value, f value = result ∧ spells value text) where
  reads := by
    rintro before text rest _ spaces ⟨value, rfl, spelled⟩ ends
    rw [takes.reads spaces spelled ends]
    rfl
  spelled := by
    intro text rest result read
    obtain ⟨⟨value, _⟩, front, same⟩ := map_eq_ok_iff.1 read
    cases same
    obtain ⟨before, inside, spaces, spelled, parts⟩ := takes.spelled front
    exact ⟨before, inside, spaces, ⟨value, rfl, spelled⟩, parts⟩

theorem Takes.congr {others : α → List Char → Prop} (takes : Takes reader spells)
    (same : ∀ result text, others result text ↔ spells result text) : Takes reader others := by
  obtain rfl : others = spells := funext fun result => funext fun text => propext (same result text)
  exact takes

end

/-- No result comes of a text of another type. -/
theorem typeFault_ne_ok {α : Type} {wanted : String} {text : List Char} {result : α} :
    typeFault wanted text ≠ .ok result := by
  intro read
  obtain ⟨_, _, impossible⟩ := bind_eq_ok_iff.1 read
  cases impossible

theorem takes_readBool : Takes readBool (fun b => Spells (.bool b)) where
  reads := by
    rintro before _ rest b spaces rfl ends
    rw [readBool, skipSpace_append spaces]
    cases b <;> rfl
  spelled := by
    intro text rest b read
    obtain ⟨before, spaces, parts⟩ := eq_append_skipSpace text
    rw [readBool] at read
    split at read
    · cases read
    rename_i c more front
    rw [front] at parts
    split at read
    · rename_i first
      obtain ⟨_, word, result⟩ := map_eq_ok_iff.1 read
      cases result
      obtain rfl := eq_of_afterWord word
      exact ⟨before, _, spaces, rfl, by rw [parts, first]; rfl⟩
    split at read
    · rename_i first
      obtain ⟨_, word, result⟩ := map_eq_ok_iff.1 read
      cases result
      obtain rfl := eq_of_afterWord word
      exact ⟨before, _, spaces, rfl, by rw [parts, first]; rfl⟩
    · exact absurd read typeFault_ne_ok

theorem takes_readText : Takes readText (fun s => Spells (.string s)) where
  reads := by
    rintro before _ rest s spaces ⟨inside, spelled, rfl⟩ ends
    rw [readText, skipSpace_append spaces, List.cons_append, skipSpace_cons rfl]
    simp [readString_spelled spelled, Except.map]
  spelled := by
    intro text rest s read
    obtain ⟨before, spaces, parts⟩ := eq_append_skipSpace text
    rw [readText] at read
    split at read
    · cases read
    rename_i c more front
    rw [front] at parts
    split at read
    · rename_i quote
      obtain ⟨⟨characters, _⟩, string, result⟩ := map_eq_ok_iff.1 read
      cases result
      obtain ⟨inside, spelled, rfl⟩ := spelled_of_readString string
      exact ⟨before, _, spaces, ⟨inside, by rwa [String.toList_ofList], rfl⟩, by simp [parts, quote]⟩
    · exact absurd read typeFault_ne_ok

theorem takes_readInteger :
    Takes readInteger (fun n text => Spells (.number (.integer n)) text ∧ n < signedLimit) where
  reads := by
    rintro before text rest n spaces ⟨spelled, small⟩ ends
    have read := readNumber_spelled spelled ends
    obtain ⟨_, numeral, _⟩ := spelled
    have begins := skipSpace_of_begins (begins_of_spellsNumeral numeral) rest
    obtain ⟨c, more, rfl, front⟩ := exists_numeral_eq numeral
    rw [readInteger, skipSpace_append spaces, begins]
    rw [List.cons_append] at read ⊢
    simp only [if_pos front, read, bind, Except.bind, if_pos small]
  spelled := by
    intro text rest n read
    obtain ⟨before, spaces, parts⟩ := eq_append_skipSpace text
    rw [readInteger] at read
    split at read
    · cases read
    rename_i c more front
    rw [front] at parts
    split at read
    · obtain ⟨⟨number, behind⟩, numberRead, result⟩ := bind_eq_ok_iff.1 read
      obtain ⟨inside, spelled, same⟩ := spelled_of_readNumber numberRead
      dsimp only at result
      split at result
      · split at result
        · rename_i small
          cases result
          exact ⟨before, inside, spaces, ⟨spelled, small⟩, by rw [parts, same]⟩
        · cases result
      · cases result
    · exact absurd read typeFault_ne_ok

end LogSieve.Json
