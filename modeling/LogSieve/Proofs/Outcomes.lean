/-!
# Outcomes one after another

What is known of a computation that can fail once it has succeeded, and of several outcomes in
a row: those up to the first error are what a caller gets to see who stops there
(`upToError`), and nothing behind that error matters.
-/
namespace LogSieve
variable {ε α β : Type}

theorem bind_eq_ok_iff {read : Except ε α} {next : α → Except ε β} {whole : β} :
    read >>= next = .ok whole ↔ ∃ result, read = .ok result ∧ next result = .ok whole := by
  cases read with
  | error fault => simp [bind, Except.bind]
  | ok result => simp [bind, Except.bind]

theorem map_eq_ok_iff {read : Except ε α} {f : α → β} {whole : β} :
    read.map f = .ok whole ↔ ∃ result, read = .ok result ∧ f result = whole := by
  cases read with
  | error fault => simp [Except.map]
  | ok result => simp [Except.map]

section
variable {ε' : Type} {f : ε → ε'}

@[simp] theorem mapError_ok (result : α) : (Except.ok result : Except ε α).mapError f = .ok result := rfl

@[simp] theorem mapError_error (error : ε) : (Except.error error : Except ε α).mapError f = .error (f error) := rfl

theorem mapError_eq_ok_iff {read : Except ε α} {result : α} : read.mapError f = .ok result ↔ read = .ok result := by
  cases read with
  | error fault => simp
  | ok whole => simp

end

/-- The results in front of the first error, and that error if there is one. -/
def upToError : List (Except ε α) → List α × Option ε
  | [] => ([], none)
  | .error error :: _ => ([], some error)
  | .ok result :: rest => (result :: (upToError rest).1, (upToError rest).2)

@[simp] theorem upToError_ok (results : List α) :
    upToError (results.map (Except.ok : α → Except ε α)) = (results, none) := by
  induction results with
  | nil => rfl
  | cons result rest ih => simp [upToError, ih]

@[simp] theorem upToError_error (results : List α) (error : ε) (rest : List (Except ε α)) :
    upToError (results.map .ok ++ .error error :: rest) = (results, some error) := by
  induction results with
  | nil => rfl
  | cons result more ih => simp [upToError, ih]

/-- Outcomes in a row succeed together. -/
theorem mapM_id_eq_ok_iff {outcomes : List (Except ε α)} {results : List α} :
    outcomes.mapM id = .ok results ↔ outcomes = results.map .ok := by
  induction outcomes generalizing results with
  | nil => cases results <;> simp [pure, Except.pure]
  | cons outcome rest ih =>
    rw [List.mapM_cons]
    constructor
    · intro together
      obtain ⟨result, read, together⟩ := bind_eq_ok_iff.1 together
      obtain ⟨others, more, same⟩ := bind_eq_ok_iff.1 together
      cases same
      rw [List.map_cons, ← ih.1 more]
      exact congrArg (· :: rest) read
    · intro each
      cases results with
      | nil => cases each
      | cons result others =>
        obtain ⟨rfl, more⟩ := List.cons_eq_cons.1 each
        simp [ih.2 more, bind, Except.bind, pure, Except.pure]

/-- Outcomes in a row fail with the first error among them. -/
theorem mapM_id_of_error (results : List α) (error : ε) (rest : List (Except ε α)) :
    (results.map Except.ok ++ Except.error error :: rest).mapM id = .error error := by
  induction results with
  | nil => rfl
  | cons result more ih => simp [List.mapM_cons, ih, bind, Except.bind]

end LogSieve
