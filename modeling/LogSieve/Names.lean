import LogSieve.Text.Blank
import LogSieve.Text.Segments
/-!
# Sets of names

A set of names is a list in strictly ascending order. It can be written as one text
in which commas stand between the names; blanks around a name do not belong to it,
and entries without a name do not count.
-/
namespace LogSieve

/-- A set of names, kept in ascending order by the operations below. -/
abbrev Names := List String

namespace Names

def insert (names : Names) (name : String) : Names :=
  match names with
  | [] => [name]
  | n :: rest =>
    if name < n then name :: n :: rest
    else if name = n then n :: rest
    else n :: insert rest name

def insertAll (names : Names) (more : List String) : Names := more.foldl insert names

def ofList (names : List String) : Names := insertAll [] names

theorem mem_insert {names : Names} {name other : String} :
    other ∈ insert names name ↔ other = name ∨ other ∈ names := by
  induction names with
  | nil => simp [insert]
  | cons n rest ih => grind [insert]

theorem mem_insertAll {names : Names} {more : List String} {name : String} :
    name ∈ insertAll names more ↔ name ∈ more ∨ name ∈ names := by
  induction more generalizing names with
  | nil => simp [insertAll]
  | cons n rest ih =>
    have step : insertAll names (n :: rest) = insertAll (insert names n) rest := rfl
    rw [step, ih, mem_insert, List.mem_cons]
    grind

theorem mem_ofList {names : List String} {name : String} : name ∈ ofList names ↔ name ∈ names := by
  simp [ofList, mem_insertAll]

/-- The names in a text, as they follow each other. -/
def entries (text : List Char) : List String :=
  (((Text.segments ',' text).map Text.trim).filter (· ≠ [])).map String.ofList

/-- The names in a text in which they are separated by commas. -/
def split (text : String) : Names := ofList (entries text.toList)

end Names
end LogSieve
