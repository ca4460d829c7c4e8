import Correspondence.Fixture.Document

/-!
# Reading fixture documents

Every part of a document is an object, or an array of its fields in their order. Fields of other names
are refused, items beyond the last field do not matter, and a field that is left out is not written as
`null`.

A document stands for a text of tables, in which every object and every array of objects has headers
of its own. What other arrays hold stands between their brackets, where nesting is limited.
-/

namespace Correspondence

namespace Json

/-- The fields of an object in which no other names occur, or of an array that holds them in the order
of their names. -/
def specFields? (names : List String) : Json → Option Fields
  | .object fields => if fields.all fun (name, _) => names.contains name then some fields else none
  | .array items => some (names.zip items)
  | _ => none

/-- Whether the value is an object. -/
def isObject : Json → Bool
  | .object _ => true
  | _ => false

mutual
/-- How deeply arrays and objects are nested in a value that has no header. -/
def bracketDepth : Json → Nat
  | .object fields => bracketDepthFields fields
  | .array items =>
    if items.isEmpty || items.any (!·.isObject) then depth (.array items)
    else bracketDepthItems items
  | _ => 0
def bracketDepthItems : List Json → Nat
  | [] => 0
  | j :: js => max (bracketDepth j) (bracketDepthItems js)
def bracketDepthFields : List (String × Json) → Nat
  | [] => 0
  | (_, j) :: fs => max (bracketDepth j) (bracketDepthFields fs)
end

end Json

namespace Fixture

/-- How deeply values without headers may be nested. -/
def maxBracketDepth : Nat := 79

/-- What has a name. The name may also be that of the one field of an object, which then holds nothing
but an empty object or array. -/
def named? {α : Type} (ofName? : String → Option α) : Json → Option α
  | .string name | .object [(name, .object [])] | .object [(name, .array [])] => ofName? name
  | _ => none

/-- A field that may be left out. -/
def absentOr {α : Type} (fields : Fields) (name : String) (read : Json → Option α) :
    Option (Option α) :=
  fields.optional name none fun j => (read j).map some

/-- A list of texts, which may be left out. -/
def texts (fields : Fields) (name : String) : Option (List String) :=
  fields.optional name [] (Json.list? Json.string?)

/-- The kinds of compiled types by the names they have in fixtures. -/
def typeKinds : List (String × DeclKind) :=
  [("class", .classType), ("interface", .interfaceType), ("enum", .enumType),
    ("annotation", .annotationType)]

/-- The kind of a compiled type. -/
def typeKind? : Json → Option DeclKind :=
  named? fun name => typeKinds.lookup name

def FieldSpec.ofJson? (j : Json) : Option FieldSpec := do
  let fields ← j.specFields? ["name", "type"]
  let name ← fields.required "name" Json.string?
  let type ← fields.required "type" Json.string?
  return { name, type }

def ExecutableSpec.ofJson? (j : Json) : Option ExecutableSpec := do
  let fields ← j.specFields? ["name", "descriptor", "params", "type_params"]
  let name ← absentOr fields "name" Json.string?
  let descriptor ← fields.required "descriptor" Json.string?
  let params ← texts fields "params"
  let typeParams ← texts fields "type_params"
  return { name, descriptor, params, typeParams }

def ParameterSpec.ofJson? (j : Json) : Option ParameterSpec := do
  let fields ← j.specFields? ["name", "type", "default", "vararg"]
  let name ← fields.required "name" Json.string?
  let type ← fields.required "type" Json.string?
  let hasDefault ← fields.optional "default" false Json.bool?
  let vararg ← absentOr fields "vararg" Json.string?
  return { name, type, hasDefault, vararg }

def ConstructorSpec.ofJson? (j : Json) : Option ConstructorSpec := do
  let fields ← j.specFields? ["secondary", "params", "jvm"]
  let isSecondary ← fields.optional "secondary" false Json.bool?
  let params ← fields.optional "params" [] (Json.list? ParameterSpec.ofJson?)
  let signature ← absentOr fields "jvm" Json.string?
  return { isSecondary, params, signature }

def FunctionSpec.ofJson? (j : Json) : Option FunctionSpec := do
  let fields ← j.specFields?
    ["name", "returns", "params", "type_params", "receiver", "suspend", "modality", "visibility",
      "jvm"]
  let name ← fields.required "name" Json.string?
  let returns ← fields.required "returns" Json.string?
  let params ← fields.optional "params" [] (Json.list? ParameterSpec.ofJson?)
  let typeParams ← texts fields "type_params"
  let receiver ← absentOr fields "receiver" Json.string?
  let isSuspending ← fields.optional "suspend" false Json.bool?
  let modality ← fields.optional "modality" .final (named? Named.ofName?)
  let visibility ← fields.optional "visibility" .everyone (named? Named.ofName?)
  let signature ← absentOr fields "jvm" Json.string?
  return { name, returns, params, typeParams, receiver, isSuspending, modality, visibility,
           signature }

def PropertySpec.ofJson? (j : Json) : Option PropertySpec := do
  let fields ← j.specFields?
    ["name", "type", "var", "visibility", "receiver", "field", "field_name", "getter", "setter",
      "holder"]
  let name ← fields.required "name" Json.string?
  let type ← fields.required "type" Json.string?
  let isMutable ← fields.optional "var" false Json.bool?
  let visibility ← fields.optional "visibility" .everyone (named? Named.ofName?)
  let receiver ← absentOr fields "receiver" Json.string?
  let field ← absentOr fields "field" Json.string?
  let fieldName ← absentOr fields "field_name" Json.string?
  let getter ← absentOr fields "getter" Json.string?
  let setter ← absentOr fields "setter" Json.string?
  let holder ← absentOr fields "holder" Json.string?
  return { name, type, isMutable, visibility, receiver, field, fieldName, getter, setter, holder }

def ClassSpec.ofJson? (j : Json) : Option ClassSpec := do
  let fields ← j.specFields?
    ["name", "kind", "companion", "module", "type_params", "constructors", "functions",
      "properties", "enum_entries"]
  let name ← fields.required "name" Json.string?
  let kind ← fields.required "kind" (named? Named.ofName?)
  let companion ← absentOr fields "companion" Json.string?
  let moduleName ← absentOr fields "module" Json.string?
  let typeParams ← texts fields "type_params"
  let constructors ← fields.optional "constructors" [] (Json.list? ConstructorSpec.ofJson?)
  let functions ← fields.optional "functions" [] (Json.list? FunctionSpec.ofJson?)
  let properties ← fields.optional "properties" [] (Json.list? PropertySpec.ofJson?)
  let enumEntries ← texts fields "enum_entries"
  return { name, kind, companion, moduleName, typeParams, constructors, functions, properties,
           enumEntries }

def FacadeSpec.ofJson? (j : Json) : Option FacadeSpec := do
  let fields ← j.specFields? ["module", "functions", "properties"]
  let moduleName ← absentOr fields "module" Json.string?
  let functions ← fields.optional "functions" [] (Json.list? FunctionSpec.ofJson?)
  let properties ← fields.optional "properties" [] (Json.list? PropertySpec.ofJson?)
  return { moduleName, functions, properties }

/-- Reads a type that is nested at most `depth` deep. -/
def TypeSpec.readWithin : Nat → Json → Option TypeSpec
  | 0, _ => none
  | depth + 1, j => do
    let fields ← j.specFields?
      ["name", "kind", "type_params", "fields", "enum_constants", "constructors", "methods",
        "initializers", "types", "class", "facade", "synthetic", "multifile_parts"]
    let name ← fields.required "name" Json.string?
    let kind ← fields.optional "kind" .classType typeKind?
    let typeParams ← texts fields "type_params"
    let members ← fields.optional "fields" [] (Json.list? FieldSpec.ofJson?)
    let enumConstants ← texts fields "enum_constants"
    let constructors ← fields.optional "constructors" [] (Json.list? ExecutableSpec.ofJson?)
    let methods ← fields.optional "methods" [] (Json.list? ExecutableSpec.ofJson?)
    let initializers ← fields.optional "initializers" 0 (Json.natBelow? (UInt64.size / 2))
    let types ← fields.optional "types" [] (Json.list? (TypeSpec.readWithin depth))
    let ofClass ← absentOr fields "class" ClassSpec.ofJson?
    let facade ← absentOr fields "facade" FacadeSpec.ofJson?
    let isSynthetic ← fields.optional "synthetic" false Json.bool?
    let multiFileParts ← texts fields "multifile_parts"
    return .mk name kind typeParams members enumConstants constructors methods initializers types
      ofClass facade isSynthetic multiFileParts

def PackageSpec.ofJson? (j : Json) : Option PackageSpec := do
  let fields ← j.specFields? ["name", "types"]
  let name ← fields.required "name" Json.string?
  let types ← fields.optional "types" [] (Json.list? (TypeSpec.readWithin j.depth))
  return { name, types }

/-- The document that a value holds. -/
def Document.ofJson? (j : Json) : Option Document := do
  guard (j.bracketDepth ≤ maxBracketDepth)
  let fields ← j.specFields? ["packages"]
  let packages ← fields.optional "packages" [] (Json.list? PackageSpec.ofJson?)
  return { packages }

end Fixture

end Correspondence
