/-!
# Segments

A list cut at a separator. A list without the separator is one segment, so there is
always at least one.
-/
namespace LogSieve.Text
variable {α : Type} [DecidableEq α]

/-- Puts an element at the front of the first segment. -/
def consFirst (x : α) : List (List α) → List (List α)
  | [] => [[x]]
  | segment :: rest => (x :: segment) :: rest

/-- The longest pieces of a list that do not hold the separator, in their order. -/
def segments (separator : α) : List α → List (List α)
  | [] => [[]]
  | x :: rest =>
    if x = separator then [] :: segments separator rest else consFirst x (segments separator rest)

theorem segments_ne_nil (separator : α) (list : List α) : segments separator list ≠ [] := by
  cases list with
  | nil => simp [segments]
  | cons x rest =>
    unfold segments
    split
    · simp
    · cases segments separator rest <;> simp [consFirst]

/-- A list without the separator is one segment. -/
theorem segments_of_not_mem {separator : α} {list : List α} (h : separator ∉ list) :
    segments separator list = [list] := by
  induction list with
  | nil => rfl
  | cons x rest ih =>
    obtain ⟨differs, absent⟩ := not_or.1 (fun m => h (List.mem_cons.2 m))
    rw [segments, if_neg (Ne.symm differs), ih absent, consFirst]

/-- The segments of two lists with a separator between them are those of the one and of the other. -/
theorem segments_append_separator (separator : α) (before after : List α) :
    segments separator (before ++ separator :: after) =
      segments separator before ++ segments separator after := by
  induction before with
  | nil => simp [segments]
  | cons x rest ih =>
    rw [List.cons_append, segments, segments, ih]
    split
    · rfl
    · cases pieces : segments separator rest with
      | nil => exact absurd pieces (segments_ne_nil separator rest)
      | cons first more => rfl

end LogSieve.Text
