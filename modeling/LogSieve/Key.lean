/-!
# Dots in names

A store that reads a dot in a field's name as a path needs names without dots. Where a
replacement is set, it stands for every dot of a name.
-/
namespace LogSieve.Key

def Dotted (name : String) : Prop := '.' ∈ name.toList

instance (name : String) : Decidable (Dotted name) := inferInstanceAs (Decidable (_ ∈ _))

/-- There is a replacement and a dot for it to stand for. -/
def Touched (replacement : Option String) (name : String) : Prop := replacement.isSome ∧ Dotted name

instance (replacement : Option String) (name : String) : Decidable (Touched replacement name) :=
  inferInstanceAs (Decidable (_ ∧ _))

/-- The name with `replacement` for every dot. -/
def replaceDots (replacement : String) (name : String) : String :=
  String.ofList (name.toList.flatMap (fun c => if c = '.' then replacement.toList else [c]))

/-- The name with the replacement, if there is one, for every dot. -/
def undotted (replacement : Option String) (name : String) : String :=
  match replacement with
  | some replacement => if Dotted name then replaceDots replacement name else name
  | none => name

/-- A name stays as it is unless it is touched. -/
theorem undotted_of_not_touched {replacement : Option String} {name : String}
    (h : ¬ Touched replacement name) : undotted replacement name = name := by
  cases replacement with
  | none => rfl
  | some r => simp_all [undotted, Touched]

end LogSieve.Key
