import Correspondence.Json

/-!
# Named values

Types of finitely many values, each of which goes by a name of its own in documents and in errors.
-/

namespace Correspondence

/-- A type of finitely many values with names. -/
class Named (α : Type) where
  /-- Every value, in the order in which documents list them. -/
  all : List α
  name : α → String

namespace Named

variable {α : Type} [Named α]

/-- The value with a name. -/
def ofName? (name : String) : Option α :=
  (all : List α).find? fun a => Named.name a = name

/-- The name as a JSON value. -/
def toJson (a : α) : Json :=
  .string (name a)

/-- The value that a JSON value names. The name may also be that of the one field of an object, which
then holds nothing. -/
def ofJson? : Json → Option α
  | .string name | .object [(name, .null)] => ofName? name
  | _ => none

theorem ofName?_eq_some {name : String} {a : α} (h : (ofName? name : Option α) = some a) :
    a ∈ (all : List α) ∧ Named.name a = name := by
  have ha := List.find?_some h
  exact ⟨List.mem_of_find?_eq_some h, by simpa using ha⟩

end Named

end Correspondence
