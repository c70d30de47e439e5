import LogSieve.Files
/-!
# Writing through a buffer

Bytes that are written wait in a buffer and pass on to the file together. They keep
their order and none is lost (`push_append`), and none pass on as long as there is room for
all of them in the buffer (`pushLine_fst_eq_nil_iff`).
-/
namespace LogSieve.Buffer

def size : Nat := 8192

/-- The bytes that pass on and those that are held when more of them come behind the held ones. What
    would fill the buffer by itself is not held. -/
def push (held more : Bytes) : Bytes × Bytes :=
  if size ≤ more.length then (held ++ more, [])
  else if size < held.length + more.length then (held, more)
  else ([], held ++ more)

theorem push_append (held more : Bytes) : (push held more).1 ++ (push held more).2 = held ++ more := by
  unfold push
  split
  · simp
  · split <;> simp

theorem push_fst_eq_nil_iff {held more : Bytes} :
    (push held more).1 = [] ↔ more.length < size ∧ held.length + more.length ≤ size := by
  unfold push
  by_cases large : size ≤ more.length
  · have filled : more ≠ [] := by
      rintro rfl
      exact absurd large (by decide)
    rw [if_pos large]
    simp [filled, Nat.not_lt.2 large]
  · rw [if_neg large]
    by_cases full : size < held.length + more.length
    · have filled : held ≠ [] := by
        rintro rfl
        exact large (by simpa using Nat.le_of_lt full)
      rw [if_pos full]
      simp [filled, full]
    · rw [if_neg full]
      simp [Nat.not_le.1 large, Nat.not_lt.1 full]

theorem push_snd_of_fst_eq_nil {held more : Bytes} (nothing : (push held more).1 = []) :
    (push held more).2 = held ++ more := by
  simpa [nothing] using push_append held more

/-- A text and the byte that ends its line come one after the other. -/
def pushLine (held text : Bytes) (lineEnd : UInt8) : Bytes × Bytes :=
  let first := push held text
  let second := push first.2 [lineEnd]
  (first.1 ++ second.1, second.2)

theorem pushLine_append (held text : Bytes) (lineEnd : UInt8) :
    (pushLine held text lineEnd).1 ++ (pushLine held text lineEnd).2 = held ++ text ++ [lineEnd] := by
  simp only [pushLine, List.append_assoc, push_append]
  rw [← List.append_assoc, push_append, List.append_assoc]

/-- Nothing passes on exactly if there is room in the buffer for the line behind what is held. -/
theorem pushLine_fst_eq_nil_iff {held text : Bytes} {lineEnd : UInt8} :
    (pushLine held text lineEnd).1 = [] ↔ (held ++ text ++ [lineEnd]).length ≤ size := by
  simp only [pushLine, List.append_eq_nil_iff, push_fst_eq_nil_iff, List.length_append, List.length_singleton]
  constructor
  · rintro ⟨first, _, second⟩
    rwa [push_snd_of_fst_eq_nil (push_fst_eq_nil_iff.2 first), List.length_append] at second
  · intro room
    have first : text.length < size ∧ held.length + text.length ≤ size := by omega
    refine ⟨first, by decide, ?_⟩
    rwa [push_snd_of_fst_eq_nil (push_fst_eq_nil_iff.2 first), List.length_append]

end LogSieve.Buffer
