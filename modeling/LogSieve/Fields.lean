/-!
# Fields

Named values in strictly ascending order of their names. The order is that of
code points, which is the order of UTF-8 bytes. `insert` replaces the value of a
name that is already there, so of two writes to one name the later counts.
-/
namespace LogSieve

/-- Named values, kept in ascending order of their names by the operations below. -/
abbrev Fields (α : Type) := List (String × α)

namespace Fields
variable {α β : Type}

/-- Every name is smaller than the names after it. -/
def Sorted (fields : Fields α) : Prop := fields.Pairwise (fun a b => a.1 < b.1)

def get? (fields : Fields α) (name : String) : Option α :=
  match fields with
  | [] => none
  | (n, v) :: rest => if n = name then some v else get? rest name

/-- Stores `value` under `name` at its place in the order. -/
def insert (fields : Fields α) (name : String) (value : α) : Fields α :=
  match fields with
  | [] => [(name, value)]
  | (n, v) :: rest =>
    if name < n then (name, value) :: (n, v) :: rest
    else if name = n then (name, value) :: rest
    else (n, v) :: insert rest name value

def erase (fields : Fields α) (name : String) : Fields α :=
  fields.filter (fun field => field.1 ≠ name)

/-- Writes the fields of `later` over those of `fields`, in the order of `later`. -/
def insertAll (fields later : Fields α) : Fields α :=
  later.foldl (fun acc field => insert acc field.1 field.2) fields

/-- The fields written in the given order: the last value of a name counts. -/
def ofList (writes : List (String × α)) : Fields α := insertAll [] writes

def names (fields : Fields α) : List String := fields.map (·.1)

@[simp] theorem get?_nil (name : String) : get? ([] : Fields α) name = none := rfl

/-- The value just stored is the one found, and no other name is touched. -/
theorem get?_insert (fields : Fields α) (name other : String) (value : α) :
    get? (insert fields name value) other = if other = name then some value else get? fields other := by
  induction fields with
  | nil => grind [insert, get?]
  | cons field rest ih => grind [insert, get?]

theorem mem_of_mem_insert {fields : Fields α} {name : String} {value : α} {field : String × α}
    (h : field ∈ insert fields name value) : field = (name, value) ∨ field ∈ fields := by
  induction fields with
  | nil => simpa [insert] using h
  | cons head rest ih =>
    obtain ⟨n, v⟩ := head
    unfold insert at h
    split at h
    · simpa using h
    · split at h
      · rcases List.mem_cons.1 h with e | m
        · exact .inl e
        · exact .inr (List.mem_cons_of_mem _ m)
      · rcases List.mem_cons.1 h with e | m
        · exact .inr (e ▸ List.mem_cons_self)
        · exact (ih m).imp id (List.mem_cons_of_mem _)

theorem sorted_nil : Sorted ([] : Fields α) := List.Pairwise.nil

theorem sorted_insert {fields : Fields α} (h : Sorted fields) (name : String) (value : α) :
    Sorted (insert fields name value) := by
  induction fields with
  | nil => exact List.pairwise_singleton _ _
  | cons head rest ih =>
    obtain ⟨n, v⟩ := head
    have tail := List.pairwise_cons.1 h
    unfold insert
    split
    · rename_i below
      refine List.pairwise_cons.2 ⟨fun field m => ?_, h⟩
      rcases List.mem_cons.1 m with e | m
      · exact e ▸ below
      · exact String.lt_trans below (tail.1 field m)
    · split
      · rename_i same
        subst same
        exact List.pairwise_cons.2 ⟨tail.1, tail.2⟩
      · rename_i notBelow notSame
        refine List.pairwise_cons.2 ⟨fun field m => ?_, ih tail.2⟩
        rcases mem_of_mem_insert m with e | m
        · subst e
          rcases Std.le_iff_lt_or_eq.1 (Std.not_lt.1 notBelow) with l | e
          · exact l
          · exact absurd e.symm notSame
        · exact tail.1 field m

theorem sorted_insertAll {fields : Fields α} (h : Sorted fields) (later : Fields α) :
    Sorted (insertAll fields later) := by
  induction later generalizing fields with
  | nil => exact h
  | cons field rest ih => exact ih (sorted_insert h field.1 field.2)

theorem sorted_ofList (writes : List (String × α)) : Sorted (ofList writes) :=
  sorted_insertAll sorted_nil writes

end Fields
end LogSieve
