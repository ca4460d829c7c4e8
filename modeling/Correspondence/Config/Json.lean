import Correspondence.Config
import Correspondence.Json

/-!
# Configurations in JSON
-/

namespace Correspondence.Config

/-- The configuration that a value holds. Fields that are left out have their defaults. -/
def ofJson? (j : Json) : Option Config := do
  let fields : Fields ←
    j.record? ["default_module_name", "verify_accessor_shapes", "check_qualified_names"]
  let byDefault : Config := {}
  let defaultModuleName ←
    fields.optional "default_module_name" byDefault.defaultModuleName Json.string?
  let verifyAccessorShapes ←
    fields.optional "verify_accessor_shapes" byDefault.verifyAccessorShapes Json.bool?
  let checkQualifiedNames ←
    fields.optional "check_qualified_names" byDefault.checkQualifiedNames Json.bool?
  return { defaultModuleName, verifyAccessorShapes, checkQualifiedNames }

/-- The configuration with all of its fields. -/
def toJson (c : Config) : Json :=
  .object [("default_module_name", .string c.defaultModuleName),
    ("verify_accessor_shapes", .bool c.verifyAccessorShapes),
    ("check_qualified_names", .bool c.checkQualifiedNames)]

end Correspondence.Config
