import Correspondence.Config
import Correspondence.Toml.Document

/-!
# Configurations in TOML

Every key may be left out, and keys and tables that are not known do not matter.
-/

namespace Correspondence

namespace Toml

/-- A text. -/
def Value.string? : Value → Option String
  | .string text => some text
  | _ => none

/-- A truth value. -/
def Value.bool? : Value → Option Bool
  | .boolean value => some value
  | _ => none

/-- A field that may be left out. -/
def Table.optional {α : Type} (t : Table) (key : String) (default : α) (read : Value → Option α) :
    Option α :=
  match t.find? key with
  | none => some default
  | some value => read value

end Toml

/-- The configuration that a document describes. -/
def Config.ofToml? (text : String) : Option Config := do
  let table ← Toml.Table.ofText? text
  let byDefault : Config := {}
  let defaultModuleName ←
    table.optional "default_module_name" byDefault.defaultModuleName Toml.Value.string?
  let verifyAccessorShapes ←
    table.optional "verify_accessor_shapes" byDefault.verifyAccessorShapes Toml.Value.bool?
  let checkQualifiedNames ←
    table.optional "check_qualified_names" byDefault.checkQualifiedNames Toml.Value.bool?
  return { defaultModuleName, verifyAccessorShapes, checkQualifiedNames }

end Correspondence
