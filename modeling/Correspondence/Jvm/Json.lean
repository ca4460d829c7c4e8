import Correspondence.Json
import Correspondence.Jvm.Type

/-!
# JVM types as JSON

A primitive type is written as its tag, and every other type as an object whose one field is
named by the tag. The tag of a primitive type may also be read off an object whose one field is
`null`.
-/

namespace Correspondence.JvmType

/-- The types that carry nothing, each with its tag. -/
def plain : List (String × JvmType) :=
  [("Void", .void), ("Boolean", .boolean), ("Byte", .byte), ("Char", .char), ("Short", .short),
    ("Int", .int), ("Long", .long), ("Float", .float), ("Double", .double)]

/-- The written form. -/
def toJson : JvmType → Json
  | .void => .string "Void"
  | .boolean => .string "Boolean"
  | .byte => .string "Byte"
  | .char => .string "Char"
  | .short => .string "Short"
  | .int => .string "Int"
  | .long => .string "Long"
  | .float => .string "Float"
  | .double => .string "Double"
  | .object name => .object [("Object", .string name)]
  | .array element => .object [("Array", element.toJson)]
  | .typeVariable name bound =>
    .object [("TypeVariable", .object [("name", .string name), ("bound", bound.toJson)])]

/-- Reads a value that is nested at most `depth` deep. -/
def readWithin (depth : Nat) (j : Json) : Option JvmType :=
  match depth, j with
  | _, .string tag | _, .object [(tag, .null)] => plain.lookup tag
  | _ + 1, .object [("Object", name)] => name.string?.map .object
  | depth + 1, .object [("Array", element)] => (readWithin depth element).map .array
  | depth + 1, .object [("TypeVariable", .object fields)] => do
    let name ← Fields.required fields "name" Json.string?
    let bound ← Fields.required fields "bound" (readWithin depth)
    return .typeVariable name bound
  | _, _ => none

/-- The type that a value is the written form of. -/
def ofJson? (j : Json) : Option JvmType :=
  readWithin j.depth j

end Correspondence.JvmType
