import Correspondence.Metadata.Error
import Correspondence.Named

/-!
# Source types

Types as the source program writes them: a class or a type parameter, with arguments.
-/

namespace Correspondence

/-- What a source type refers to. -/
inductive Classifier
  /-- A class by its qualified name, whose packages are separated by slashes. -/
  | named (name : StringId)
  /-- A type parameter by its number. -/
  | typeParameter (id : Nat)
deriving DecidableEq, Repr

/-- Where a type parameter or an argument stands with respect to subtypes. -/
inductive Variance
  | invariant
  | contravariant
  | covariant
deriving DecidableEq, Repr, Inhabited

instance : Named Variance where
  all := [.invariant, .contravariant, .covariant]
  name
    | .invariant => "Invariant"
    | .contravariant => "In"
    | .covariant => "Out"

mutual
/-- A type of the source program. -/
structure TypeRef where
  classifier : Classifier
  nullable : Bool
  arguments : List Projection
/-- An argument of a type. -/
structure Projection where
  variance : Variance
  /-- The type, which a star leaves out. -/
  type? : Option TypeRef
end

namespace TypeRef

/-- The class without arguments. -/
def named (name : StringId) : TypeRef :=
  ⟨.named name, false, []⟩

/-- The type parameter. -/
def typeParameter (id : Nat) : TypeRef :=
  ⟨.typeParameter id, false, []⟩

/-- The type together with the absence of a value. -/
def orNull (type : TypeRef) : TypeRef :=
  { type with nullable := true }

/-- One more argument. -/
def addArgument (type argument : TypeRef) : TypeRef :=
  { type with arguments := type.arguments ++ [⟨.invariant, some argument⟩] }

/-- One more argument, a star. -/
def addStar (type : TypeRef) : TypeRef :=
  { type with arguments := type.arguments ++ [⟨.invariant, none⟩] }

end TypeRef

end Correspondence
