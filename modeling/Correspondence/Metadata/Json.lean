import Correspondence.Metadata.Basic

/-!
# Metadata as JSON

Every part of the metadata is an object of its fields, or an array of them in their order. Objects of
all fields are written. When they are read, those with a default may be left out, and those that may
be absent may also be `null`. The alternatives of metadata and of classifiers are objects of one
field, which is named by the alternative.
-/

namespace Correspondence

namespace StringId

/-- The written form. -/
def toJson (id : StringId) : Json :=
  .nat id.index

/-- The number that a value is the written form of. -/
def ofJson? (j : Json) : Option StringId :=
  j.word?.map StringId.mk

end StringId

namespace StringTable

/-- The written form: the strings in order. -/
def toJson (t : StringTable) : Json :=
  .list .string t.toList

/-- The strings that a value lists, repetitions left out. -/
def ofJson? (j : Json) : Option StringTable :=
  (j.list? Json.string?).map ofList

end StringTable

namespace Flags

variable {μ : Type} [DecidableEq μ] [Named μ]

/-- The written form. -/
def toJson (flags : Flags μ) : Json :=
  .string flags.text

/-- The set that a value is the written form of. -/
def ofJson? (j : Json) : Option (Flags μ) :=
  j.string?.bind ofText?

end Flags

namespace Classifier

/-- The written form. -/
def toJson : Classifier → Json
  | .named name => .object [("Class", name.toJson)]
  | .typeParameter id => .object [("TypeParameter", .nat id)]

/-- The classifier that a value is the written form of. -/
def ofJson? : Json → Option Classifier
  | .object [("Class", name)] => (StringId.ofJson? name).map .named
  | .object [("TypeParameter", id)] => id.word?.map .typeParameter
  | _ => none

end Classifier

mutual
/-- The written form. -/
def TypeRef.toJson : TypeRef → Json
  | ⟨classifier, nullable, arguments⟩ =>
    .object [("classifier", classifier.toJson), ("nullable", .bool nullable),
      ("arguments", .array (Projection.listToJson arguments))]
/-- The written form. -/
def Projection.toJson : Projection → Json
  | ⟨variance, none⟩ => .object [("variance", Named.toJson variance), ("ty", .null)]
  | ⟨variance, some type⟩ => .object [("variance", Named.toJson variance), ("ty", type.toJson)]
/-- The written forms, one after the other. -/
def Projection.listToJson : List Projection → List Json
  | [] => []
  | projection :: rest => projection.toJson :: Projection.listToJson rest
end

namespace TypeRef

mutual
/-- Reads a type that is nested at most `depth` deep. -/
def readWithin (depth : Nat) (j : Json) : Option TypeRef :=
  match depth, j with
  | depth + 1, j => do
    let fields ← j.record? ["classifier", "nullable", "arguments"]
    let classifier ← Fields.required fields "classifier" Classifier.ofJson?
    let nullable ← Fields.optional fields "nullable" false Json.bool?
    let arguments ← Fields.optional fields "arguments" [] (Json.list? (readProjection depth))
    return ⟨classifier, nullable, arguments⟩
  | 0, _ => none
/-- Reads an argument that is nested at most `depth` deep. -/
def readProjection (depth : Nat) (j : Json) : Option Projection :=
  match depth, j with
  | depth + 1, .object fields => do
    let variance ← Fields.required fields "variance" Named.ofJson?
    let type? ← Fields.nullable fields "ty" (readWithin depth)
    return ⟨variance, type?⟩
  | depth + 1, .array [variance, type] => do
    let variance ← Named.ofJson? variance
    let type? ← Json.opt? (readWithin depth) type
    return ⟨variance, type?⟩
  | _, _ => none
end

/-- The type that a value is the written form of. -/
def ofJson? (j : Json) : Option TypeRef :=
  readWithin j.depth j

end TypeRef

namespace MethodSignature

/-- The written form. -/
def toJson (s : MethodSignature) : Json :=
  .object [("name", s.name.toJson), ("desc", s.desc.toJson)]

/-- The signature that a value is the written form of. -/
def ofJson? (j : Json) : Option MethodSignature := do
  let fields ← j.record? ["name", "desc"]
  let name ← Fields.required fields "name" StringId.ofJson?
  let desc ← Fields.required fields "desc" StringId.ofJson?
  return { name, desc }

end MethodSignature

namespace FieldSignature

/-- The written form. -/
def toJson (s : FieldSignature) : Json :=
  .object [("name", .opt StringId.toJson s.name), ("desc", s.desc.toJson)]

/-- The signature that a value is the written form of. -/
def ofJson? (j : Json) : Option FieldSignature := do
  let fields ← j.record? ["name", "desc"]
  let name ← Fields.nullable fields "name" StringId.ofJson?
  let desc ← Fields.required fields "desc" StringId.ofJson?
  return { name, desc }

end FieldSignature

namespace PropertySignature

/-- The written form. -/
def toJson (s : PropertySignature) : Json :=
  .object [("field", .opt FieldSignature.toJson s.field),
    ("getter", .opt MethodSignature.toJson s.getter),
    ("setter", .opt MethodSignature.toJson s.setter),
    ("synthetic_method", .opt MethodSignature.toJson s.holder)]

/-- The members that a value is the written form of. -/
def ofJson? (j : Json) : Option PropertySignature := do
  let fields ← j.record? ["field", "getter", "setter", "synthetic_method"]
  let field ← Fields.nullable fields "field" FieldSignature.ofJson?
  let getter ← Fields.nullable fields "getter" MethodSignature.ofJson?
  let setter ← Fields.nullable fields "setter" MethodSignature.ofJson?
  let holder ← Fields.nullable fields "synthetic_method" MethodSignature.ofJson?
  return { field, getter, setter, holder }

end PropertySignature

namespace ParameterDescriptor

/-- The written form. -/
def toJson (p : ParameterDescriptor) : Json :=
  .object [("name", p.name.toJson), ("declares_default", .bool p.declaresDefault),
    ("ty", p.type.toJson), ("vararg_element", .opt TypeRef.toJson p.varargElement)]

/-- The parameter that a value is the written form of. -/
def ofJson? (j : Json) : Option ParameterDescriptor := do
  let fields ← j.record? ["name", "declares_default", "ty", "vararg_element"]
  let name ← Fields.required fields "name" StringId.ofJson?
  let declaresDefault ← Fields.optional fields "declares_default" false Json.bool?
  let type ← Fields.required fields "ty" TypeRef.ofJson?
  let varargElement ← Fields.nullable fields "vararg_element" TypeRef.ofJson?
  return { name, declaresDefault, type, varargElement }

end ParameterDescriptor

namespace TypeParameterDescriptor

/-- The written form. -/
def toJson (p : TypeParameterDescriptor) : Json :=
  .object [("id", .nat p.id), ("name", p.name.toJson), ("variance", Named.toJson p.variance),
    ("reified", .bool p.reified), ("upper_bounds", .list TypeRef.toJson p.upperBounds)]

/-- The type parameter that a value is the written form of. -/
def ofJson? (j : Json) : Option TypeParameterDescriptor := do
  let fields ← j.record? ["id", "name", "variance", "reified", "upper_bounds"]
  let id ← Fields.required fields "id" Json.word?
  let name ← Fields.required fields "name" StringId.ofJson?
  let variance ← Fields.optional fields "variance" .invariant Named.ofJson?
  let reified ← Fields.optional fields "reified" false Json.bool?
  let upperBounds ← Fields.optional fields "upper_bounds" [] (Json.list? TypeRef.ofJson?)
  return { id, name, variance, reified, upperBounds }

end TypeParameterDescriptor

namespace FunctionDescriptor

/-- The written form. -/
def toJson (f : FunctionDescriptor) : Json :=
  .object [("name", f.name.toJson), ("modality", Named.toJson f.modality),
    ("visibility", Named.toJson f.visibility), ("flags", f.flags.toJson),
    ("type_parameters", .list TypeParameterDescriptor.toJson f.typeParameters),
    ("receiver", .opt TypeRef.toJson f.receiver),
    ("value_parameters", .list ParameterDescriptor.toJson f.valueParameters),
    ("return_type", f.returnType.toJson),
    ("jvm_signature", .opt MethodSignature.toJson f.signature)]

/-- The function that a value is the written form of. -/
def ofJson? (j : Json) : Option FunctionDescriptor := do
  let fields ← j.record?
    ["name", "modality", "visibility", "flags", "type_parameters", "receiver", "value_parameters",
      "return_type", "jvm_signature"]
  let name ← Fields.required fields "name" StringId.ofJson?
  let modality ← Fields.optional fields "modality" .final Named.ofJson?
  let visibility ← Fields.optional fields "visibility" .everyone Named.ofJson?
  let flags ← Fields.optional fields "flags" .empty Flags.ofJson?
  let typeParameters ←
    Fields.optional fields "type_parameters" [] (Json.list? TypeParameterDescriptor.ofJson?)
  let receiver ← Fields.nullable fields "receiver" TypeRef.ofJson?
  let valueParameters ←
    Fields.optional fields "value_parameters" [] (Json.list? ParameterDescriptor.ofJson?)
  let returnType ← Fields.required fields "return_type" TypeRef.ofJson?
  let signature ← Fields.nullable fields "jvm_signature" MethodSignature.ofJson?
  return { name, modality, visibility, flags, typeParameters, receiver, valueParameters,
           returnType, signature }

end FunctionDescriptor

namespace ConstructorDescriptor

/-- The written form. -/
def toJson (c : ConstructorDescriptor) : Json :=
  .object [("kind", Named.toJson c.kind), ("visibility", Named.toJson c.visibility),
    ("value_parameters", .list ParameterDescriptor.toJson c.valueParameters),
    ("jvm_signature", .opt MethodSignature.toJson c.signature)]

/-- The constructor that a value is the written form of. -/
def ofJson? (j : Json) : Option ConstructorDescriptor := do
  let fields ← j.record? ["kind", "visibility", "value_parameters", "jvm_signature"]
  let kind ← Fields.optional fields "kind" .primary Named.ofJson?
  let visibility ← Fields.optional fields "visibility" .everyone Named.ofJson?
  let valueParameters ←
    Fields.optional fields "value_parameters" [] (Json.list? ParameterDescriptor.ofJson?)
  let signature ← Fields.nullable fields "jvm_signature" MethodSignature.ofJson?
  return { kind, visibility, valueParameters, signature }

end ConstructorDescriptor

namespace PropertyDescriptor

/-- The written form. -/
def toJson (p : PropertyDescriptor) : Json :=
  .object [("name", p.name.toJson), ("modality", Named.toJson p.modality),
    ("visibility", Named.toJson p.visibility), ("flags", p.flags.toJson),
    ("return_type", p.returnType.toJson), ("receiver", .opt TypeRef.toJson p.receiver),
    ("jvm", p.members.toJson)]

/-- The property that a value is the written form of. -/
def ofJson? (j : Json) : Option PropertyDescriptor := do
  let fields ← j.record?
    ["name", "modality", "visibility", "flags", "return_type", "receiver", "jvm"]
  let name ← Fields.required fields "name" StringId.ofJson?
  let modality ← Fields.optional fields "modality" .final Named.ofJson?
  let visibility ← Fields.optional fields "visibility" .everyone Named.ofJson?
  let flags ← Fields.optional fields "flags" .empty Flags.ofJson?
  let returnType ← Fields.required fields "return_type" TypeRef.ofJson?
  let receiver ← Fields.nullable fields "receiver" TypeRef.ofJson?
  let members ← Fields.optional fields "jvm" {} PropertySignature.ofJson?
  return { name, modality, visibility, flags, returnType, receiver, members }

end PropertyDescriptor

namespace ClassDescriptor

/-- The written form. -/
def toJson (c : ClassDescriptor) : Json :=
  .object [("fq_name", c.qualifiedName.toJson), ("kind", Named.toJson c.kind),
    ("modality", Named.toJson c.modality), ("visibility", Named.toJson c.visibility),
    ("flags", c.flags.toJson),
    ("companion_object_name", .opt StringId.toJson c.companionName),
    ("type_parameters", .list TypeParameterDescriptor.toJson c.typeParameters),
    ("constructors", .list ConstructorDescriptor.toJson c.constructors),
    ("functions", .list FunctionDescriptor.toJson c.functions),
    ("properties", .list PropertyDescriptor.toJson c.properties),
    ("enum_entries", .list StringId.toJson c.enumEntries),
    ("module_name", .opt StringId.toJson c.moduleName)]

/-- The class that a value is the written form of. -/
def ofJson? (j : Json) : Option ClassDescriptor := do
  let fields ← j.record?
    ["fq_name", "kind", "modality", "visibility", "flags", "companion_object_name",
      "type_parameters", "constructors", "functions", "properties", "enum_entries", "module_name"]
  let qualifiedName ← Fields.required fields "fq_name" StringId.ofJson?
  let kind ← Fields.required fields "kind" Named.ofJson?
  let modality ← Fields.optional fields "modality" .final Named.ofJson?
  let visibility ← Fields.optional fields "visibility" .everyone Named.ofJson?
  let flags ← Fields.optional fields "flags" .empty Flags.ofJson?
  let companionName ← Fields.nullable fields "companion_object_name" StringId.ofJson?
  let typeParameters ←
    Fields.optional fields "type_parameters" [] (Json.list? TypeParameterDescriptor.ofJson?)
  let constructors ←
    Fields.optional fields "constructors" [] (Json.list? ConstructorDescriptor.ofJson?)
  let functions ← Fields.optional fields "functions" [] (Json.list? FunctionDescriptor.ofJson?)
  let properties ← Fields.optional fields "properties" [] (Json.list? PropertyDescriptor.ofJson?)
  let enumEntries ← Fields.optional fields "enum_entries" [] (Json.list? StringId.ofJson?)
  let moduleName ← Fields.nullable fields "module_name" StringId.ofJson?
  return { qualifiedName, kind, modality, visibility, flags, companionName, typeParameters,
           constructors, functions, properties, enumEntries, moduleName }

end ClassDescriptor

namespace PackageDescriptor

/-- The written form. -/
def toJson (p : PackageDescriptor) : Json :=
  .object [("functions", .list FunctionDescriptor.toJson p.functions),
    ("properties", .list PropertyDescriptor.toJson p.properties),
    ("module_name", .opt StringId.toJson p.moduleName)]

/-- The declarations that a value is the written form of. -/
def ofJson? (j : Json) : Option PackageDescriptor := do
  let fields ← j.record? ["functions", "properties", "module_name"]
  let functions ← Fields.optional fields "functions" [] (Json.list? FunctionDescriptor.ofJson?)
  let properties ← Fields.optional fields "properties" [] (Json.list? PropertyDescriptor.ofJson?)
  let moduleName ← Fields.nullable fields "module_name" StringId.ofJson?
  return { functions, properties, moduleName }

end PackageDescriptor

namespace ClassMetadata

/-- The written form. -/
def toJson (m : ClassMetadata) : Json :=
  .object [("strings", m.strings.toJson), ("class", m.descriptor.toJson)]

/-- The metadata that a value is the written form of. -/
def ofJson? (j : Json) : Option ClassMetadata := do
  let fields ← j.record? ["strings", "class"]
  let strings ← Fields.required fields "strings" StringTable.ofJson?
  let descriptor ← Fields.required fields "class" ClassDescriptor.ofJson?
  return { strings, descriptor }

end ClassMetadata

namespace PackageMetadata

/-- The written form. -/
def toJson (m : PackageMetadata) : Json :=
  .object [("strings", m.strings.toJson), ("package", m.descriptor.toJson)]

/-- The metadata that a value is the written form of. -/
def ofJson? (j : Json) : Option PackageMetadata := do
  let fields ← j.record? ["strings", "package"]
  let strings ← Fields.required fields "strings" StringTable.ofJson?
  let descriptor ← Fields.required fields "package" PackageDescriptor.ofJson?
  return { strings, descriptor }

end PackageMetadata

namespace Metadata

/-- The written form. -/
def toJson : Metadata → Json
  | .ofClass metadata => .object [("Class", metadata.toJson)]
  | .fileFacade metadata => .object [("FileFacade", metadata.toJson)]
  | .multiFileFacade parts =>
    .object [("MultiFileClassFacade", .object [("parts", .list .string parts)])]
  | .multiFilePart metadata facade =>
    .object [("MultiFileClassPart",
      .object [("metadata", metadata.toJson), ("facade", .string facade)])]
  | .synthetic => .string "SyntheticClass"

/-- The metadata that a value is the written form of. -/
def ofJson? : Json → Option Metadata
  | .string "SyntheticClass" | .object [("SyntheticClass", .null)] => some .synthetic
  | .object [("Class", metadata)] => (ClassMetadata.ofJson? metadata).map .ofClass
  | .object [("FileFacade", metadata)] => (PackageMetadata.ofJson? metadata).map .fileFacade
  | .object [("MultiFileClassFacade", .object fields)] =>
    (Fields.required fields "parts" (Json.list? Json.string?)).map .multiFileFacade
  | .object [("MultiFileClassPart", .object fields)] => do
    let metadata ← Fields.required fields "metadata" PackageMetadata.ofJson?
    let facade ← Fields.required fields "facade" Json.string?
    return .multiFilePart metadata facade
  | _ => none

end Metadata

end Correspondence
