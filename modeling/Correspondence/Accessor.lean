import Correspondence.Decl.Host
import Correspondence.Text.Cut

/-!
# Accessors

The parts that compiled members play for a property, and which part the form of a method allows.
-/

namespace Correspondence

/-- The part that a compiled member plays for a property. -/
inductive AccessorRole
  | field
  | getter
  | setter
  | holder
deriving DecidableEq, Repr, Inhabited

namespace AccessorRole

instance : Named AccessorRole where
  all := [.field, .getter, .setter, .holder]
  name
    | .field => "Field"
    | .getter => "Getter"
    | .setter => "Setter"
    | .holder => "AnnotationHolder"

/-- The role in words. -/
def inWords : AccessorRole → String
  | .field => "backing field"
  | .getter => "getter"
  | .setter => "setter"
  | .holder => "annotation holder"

end AccessorRole

/-- How the name of every method that holds annotations ends. -/
def holderNameEnd : String := "$annotations"

/-- The form of a method, as far as accessors are told apart by it. -/
structure AccessorShape where
  parameters : Nat
  returnsVoid : Bool
  hasHolderName : Bool
deriving DecidableEq, Repr

namespace AccessorShape

/-- The form of a method. A method without a type has no result. -/
def of (host : Host) (method : DeclId) : AccessorShape where
  parameters := (host.parameters method).length
  returnsVoid := (host.type method).all (· = .void)
  hasHolderName := holderNameEnd.toList.isSuffixOf (host.simpleName method).toList

/-- The role that the form allows. An extension property has its receiver as a first parameter. -/
def role? (shape : AccessorShape) (hasReceiver : Bool) : Option AccessorRole :=
  let implicit := if hasReceiver then 1 else 0
  if shape.hasHolderName && shape.returnsVoid && shape.parameters ≤ implicit then some .holder
  else if shape.parameters = implicit && !shape.returnsVoid then some .getter
  else if shape.parameters = implicit + 1 && shape.returnsVoid then some .setter
  else none

end AccessorShape

end Correspondence
