import Correspondence.Text.Cut

/-!
# JVM types

The types of fields, parameters and results in compiled code, with their descriptors, their
readable form and their erasure.
-/

namespace Correspondence

/-- A type of compiled code. -/
inductive JvmType
  /-- No value, as the result of a method. -/
  | void
  | boolean
  | byte
  | char
  | short
  | int
  | long
  | float
  | double
  /-- A class or interface, by the name whose parts are separated by slashes. -/
  | object (name : String)
  | array (element : JvmType)
  /-- A type variable, which erases to its bound. -/
  | typeVariable (name : String) (bound : JvmType)
deriving DecidableEq, Repr, Inhabited

namespace JvmType

/-- A class by its name, whose parts may also be separated by dots. -/
def ofName (name : String) : JvmType :=
  .object (name.map fun c => if c = '.' then '/' else c)

/-- The type with its outermost type variables replaced by their bounds. -/
def erased : JvmType → JvmType
  | .typeVariable _ bound => bound.erased
  | type => type

/-- The descriptor, in which every type variable stands for its bound. -/
def descriptor : JvmType → String
  | .void => "V"
  | .boolean => "Z"
  | .byte => "B"
  | .char => "C"
  | .short => "S"
  | .int => "I"
  | .long => "J"
  | .float => "F"
  | .double => "D"
  | .object name => "L" ++ name ++ ";"
  | .array element => "[" ++ element.descriptor
  | .typeVariable _ bound => bound.descriptor

/-- The readable form, in which a type variable goes by its name. -/
def display : JvmType → String
  | .void => "void"
  | .boolean => "boolean"
  | .byte => "byte"
  | .char => "char"
  | .short => "short"
  | .int => "int"
  | .long => "long"
  | .float => "float"
  | .double => "double"
  | .object name => name.map fun c => if c = '/' then '.' else c
  | .array element => element.display ++ "[]"
  | .typeVariable name _ => name

@[simp] theorem erased_erased (type : JvmType) : type.erased.erased = type.erased := by
  induction type with
  | typeVariable name bound ih => simpa [erased] using ih
  | _ => rfl

@[simp] theorem descriptor_erased (type : JvmType) : type.erased.descriptor = type.descriptor := by
  induction type with
  | typeVariable name bound ih => simpa [erased, descriptor] using ih
  | _ => rfl

end JvmType

end Correspondence
