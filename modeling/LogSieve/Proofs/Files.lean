import LogSieve.Files
import LogSieve.Proofs.Outcomes
import Mathlib.Data.List.Basic
/-!
# What stands where

Storing, opening and adding touch one place and leave every other as it is (`entry?_store`,
`entry?_of_openEmptied`, `entry?_append`). A file that is written at its end holds what it
held and then what was written (`writeAt_end`).
-/
namespace LogSieve.Files
variable {files revised : Files} {place other : Location}

/-- At a place other than the root, the content that was stored last is what stands there. -/
theorem entry?_store (inside : place ≠ []) (content : Bytes) :
    entry? (files.store place content) other = if other = place then some (.file content) else files.entry? other := by
  by_cases same : other = place
  · subst same
    simp [store, inside, entry?]
  · rw [if_neg same, entry?, entry?, store]
    by_cases root : other = []
    · rw [if_pos root, if_pos root]
    · rw [if_neg root, if_neg root, List.lookup_cons, beq_false_of_ne same]
      induction files.entries with
      | nil => rfl
      | cons entry rest ih =>
        obtain ⟨here, what⟩ := entry
        by_cases here_eq : here = place
        · subst here_eq
          simpa [List.lookup_cons, beq_false_of_ne same] using ih
        · by_cases found : other = here
          · subst found
            simp [here_eq]
          · simpa [List.lookup_cons, beq_false_of_ne found, here_eq] using ih

/-! ## Opening -/

/-- What is to be written is a new file, or something other than a directory that was there. -/
theorem cases_of_openSink {path : String} (sink : files.openSink path = .ok (place, revised)) :
    place ≠ [] ∧
      (revised = files.store place [] ∨
        ∃ entry, files.entry? place = some entry ∧ entry ≠ .directory ∧ revised = files) := by
  obtain ⟨ending, _, sink⟩ := bind_eq_ok_iff.1 sink
  cases named : ending.name with
  | none =>
    rw [named] at sink
    cases sink
  | some name =>
    simp only [named] at sink
    split at sink
    · cases sink
    · obtain ⟨found, looked, sink⟩ := bind_eq_ok_iff.1 sink
      have inside : ending.directory ++ [name] ≠ [] := by simp
      have stands : files.entry? (ending.directory ++ [name]) = found := by
        rw [look] at looked
        split at looked
        · cases looked
        · exact Except.ok.inj looked
      split at sink
      · cases sink
        exact ⟨inside, .inl rfl⟩
      · cases sink
      · rename_i entry notDirectory
        cases sink
        exact ⟨inside, .inr ⟨entry, stands, notDirectory, rfl⟩⟩

/-- What has been opened and emptied is an empty file if it was not a device, and every other place is as it
    was. -/
theorem entry?_of_openEmptied {path : String} (emptied : files.openEmptied path = .ok (place, revised)) :
    place ≠ [] ∧ (revised.entry? place = some (.file []) ∨ files.entry? place = some .fullDevice) ∧
      ∀ other, other ≠ place → revised.entry? other = files.entry? other := by
  obtain ⟨⟨here, opened⟩, sink, rest⟩ := bind_eq_ok_iff.1 emptied
  cases rest
  obtain ⟨inside, rfl | ⟨entry, found, notDirectory, rfl⟩⟩ := cases_of_openSink sink
  · have stored : entry? (files.store place []) place = some (.file []) := by simp [entry?_store inside]
    rw [Files.emptied, stored]
    refine ⟨inside, .inl ?_, ?_⟩
    · rw [entry?_store inside, if_pos rfl]
    · intro other apart
      rw [entry?_store inside, entry?_store inside, if_neg apart, if_neg apart]
  · cases entry with
    | directory => exact absurd rfl notDirectory
    | fullDevice =>
      rw [Files.emptied, found]
      exact ⟨inside, .inr rfl, fun _ _ => rfl⟩
    | file content =>
      rw [Files.emptied, found]
      refine ⟨inside, .inl ?_, ?_⟩
      · rw [entry?_store inside, if_pos rfl]
      · intro other apart
        rw [entry?_store inside, if_neg apart]

/-! ## Writing -/

/-- What is revised was a file. -/
theorem cases_of_revise {change : Bytes → Bytes} (done : files.revise place change = .ok revised) :
    ∃ content, files.entry? place = some (.file content) ∧ revised = files.store place (change content) := by
  rw [revise] at done
  split at done
  · rename_i content found
    cases done
    exact ⟨content, found, rfl⟩
  · cases done
  · cases done
  · cases done

theorem place_ne_nil {entry : Entry} (found : files.entry? place = some entry) (notDirectory : entry ≠ .directory) :
    place ≠ [] := by
  rintro rfl
  exact notDirectory (Option.some.inj found).symm

/-- Adding to the end of one place leaves the others. -/
theorem entry?_append {bytes : Bytes} (apart : other ≠ place) (done : files.append place bytes = .ok revised) :
    revised.entry? other = files.entry? other := by
  rw [append] at done
  split at done
  · cases done
    rfl
  · obtain ⟨content, found, rfl⟩ := cases_of_revise done
    rw [entry?_store (place_ne_nil found (by simp)), if_neg apart]

/-- What is written at the end of a file comes behind what it holds. -/
theorem writeAt_end {content : Bytes} (found : files.entry? place = some (.file content)) (bytes : Bytes) :
    ∃ written, files.writeAt place content.length bytes = .ok written ∧
      written.entry? place = some (.file (content ++ bytes)) := by
  rw [writeAt]
  by_cases nothing : bytes = []
  · subst nothing
    exact ⟨files, if_pos rfl, by simpa using found⟩
  · rw [if_neg nothing, revise, found]
    refine ⟨_, rfl, ?_⟩
    rw [entry?_store (place_ne_nil found (by simp)), if_pos rfl]
    simp

end LogSieve.Files
