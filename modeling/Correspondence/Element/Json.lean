import Correspondence.Element
import Correspondence.Metadata.Json

/-!
# Elements as JSON

An element is an object of one field, which is named by the kind of the element and holds the parts
of the element.
-/

namespace Correspondence

/-- The written form. -/
def DeclId.toJson (id : DeclId) : Json := .nat id.index

/-- The written form. -/
def ElementId.toJson (id : ElementId) : Json := .nat id.index

/-- The written form. -/
def Element.toJson : Element → Json
  | .package e => .object [("Package", .object [("host", e.host.toJson), ("name", .string e.name)])]
  | .type e => .object [("Type", .object [
      ("host", e.host.toJson),
      ("qualified_name", .string e.qualifiedName),
      ("package_name", .string e.packageName),
      ("kind", Named.toJson e.kind),
      ("modality", Named.toJson e.modality),
      ("visibility", Named.toJson e.visibility),
      ("flags", e.flags.toJson),
      ("companion_name", .opt .string e.companionName),
      ("mangling_suffix", .string e.manglingSuffix),
      ("constructors", .list ElementId.toJson e.constructors),
      ("functions", .list ElementId.toJson e.functions),
      ("properties", .list ElementId.toJson e.properties),
      ("type_parameters", .list ElementId.toJson e.typeParameters),
      ("enum_entries", .list ElementId.toJson e.enumEntries)])]
  | .fileFacade e => .object [("FileFacade", .object [
      ("host", e.host.toJson),
      ("qualified_name", .string e.qualifiedName),
      ("mangling_suffix", .string e.manglingSuffix),
      ("functions", .list ElementId.toJson e.functions),
      ("properties", .list ElementId.toJson e.properties)])]
  | .function e => .object [("Function", .object [
      ("host", e.host.toJson),
      ("overloads", .list DeclId.toJson e.overloads),
      ("owner", e.owner.toJson),
      ("name", .string e.name),
      ("signature", .string e.signature),
      ("modality", Named.toJson e.modality),
      ("visibility", Named.toJson e.visibility),
      ("flags", e.flags.toJson),
      ("is_extension", .bool e.isExtension),
      ("parameters", .list ElementId.toJson e.parameters),
      ("type_parameters", .list ElementId.toJson e.typeParameters)])]
  | .constructor e => .object [("Constructor", .object [
      ("host", e.host.toJson),
      ("overloads", .list DeclId.toJson e.overloads),
      ("owner", e.owner.toJson),
      ("kind", Named.toJson e.kind),
      ("visibility", Named.toJson e.visibility),
      ("signature", .string e.signature),
      ("parameters", .list ElementId.toJson e.parameters)])]
  | .property e => .object [("Property", .object [
      ("owner", e.owner.toJson),
      ("name", .string e.name),
      ("field", .opt DeclId.toJson e.field),
      ("getter", .opt DeclId.toJson e.getter),
      ("setter", .opt DeclId.toJson e.setter),
      ("annotation_holder", .opt DeclId.toJson e.holder),
      ("modality", Named.toJson e.modality),
      ("visibility", Named.toJson e.visibility),
      ("flags", e.flags.toJson),
      ("is_extension", .bool e.isExtension)])]
  | .parameter e => .object [("Parameter", .object [
      ("host", e.host.toJson),
      ("overload_hosts", .list DeclId.toJson e.overloadHosts),
      ("owner", e.owner.toJson),
      ("name", .string e.name),
      ("position", .nat e.position),
      ("has_default", .bool e.hasDefault),
      ("is_vararg", .bool e.isVararg)])]
  | .typeParameter e => .object [("TypeParameter", .object [
      ("host", e.host.toJson),
      ("owner", e.owner.toJson),
      ("name", .string e.name),
      ("variance", Named.toJson e.variance),
      ("reified", .bool e.reified)])]
  | .enumEntry e => .object [("EnumEntry", .object [
      ("host", e.host.toJson),
      ("owner", e.owner.toJson),
      ("name", .string e.name),
      ("ordinal", .nat e.ordinal)])]
  | .implicit e => .object [("Implicit", .object [
      ("host", e.host.toJson),
      ("kind", Named.toJson e.kind),
      ("name", .string e.name),
      ("owner", .opt ElementId.toJson e.owner)])]

end Correspondence
