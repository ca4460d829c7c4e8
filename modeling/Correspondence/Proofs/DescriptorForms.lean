import Correspondence.Proofs.JsonForms

/-!
# Written forms of metadata

Metadata is read back from what is written of it, if its numbers and flags fit into 32 bits and no
string stands twice in a table. All that is read fits. The fields that were left out are written
with their defaults.
-/

namespace Correspondence

open Json

/-- Whether the numbers and flags of the signature fit into 32 bits. -/
structure MethodSignature.Fits (s : MethodSignature) : Prop where
  name : s.name.Fits
  desc : s.desc.Fits

/-- What the fields of the signature hold. -/
structure MethodSignature.ReadFrom (fields : Fields) (s : MethodSignature) : Prop where
  name : fields.required "name" StringId.ofJson? = some s.name
  desc : fields.required "desc" StringId.ofJson? = some s.desc

namespace MethodSignature

def fieldNames : List String :=
  ["name", "desc"]

theorem readsRecord : ReadsRecord fieldNames ofJson? ReadFrom := by
  intro j s
  simp only [ofJson?, Option.bind_eq_bind, ↓Option.bind_eq_some_iff, Option.pure_def]
  constructor
  · rintro ⟨fields, hfields, name, hname, desc, hdesc, ⟨⟩⟩
    exact ⟨fields, hfields, hname, hdesc⟩
  · rintro ⟨fields, hfields, h⟩
    exact ⟨fields, hfields, _, h.name, _, h.desc, rfl⟩

theorem faithful : Faithful toJson ofJson? MethodSignature.Fits :=
  readsRecord.faithful
    (fun _ h => ⟨_, rfl, StringId.faithful.reads h.name, StringId.faithful.reads h.desc⟩)
    (fun _ _ h => ⟨StringId.faithful.of_required h.name, StringId.faithful.of_required h.desc⟩)

end MethodSignature

/-- Whether the numbers and flags of the signature fit into 32 bits. -/
structure FieldSignature.Fits (s : FieldSignature) : Prop where
  name : ∀ name ∈ s.name, name.Fits
  desc : s.desc.Fits

/-- What the fields of the signature hold. -/
structure FieldSignature.ReadFrom (fields : Fields) (s : FieldSignature) : Prop where
  name : fields.nullable "name" StringId.ofJson? = some s.name
  desc : fields.required "desc" StringId.ofJson? = some s.desc

namespace FieldSignature

def fieldNames : List String :=
  ["name", "desc"]

/-- The fields that may be left out, as they are written then. -/
def defaults : List (String × Json) :=
  [("name", .null)]

theorem readsRecord : ReadsRecord fieldNames ofJson? ReadFrom := by
  intro j s
  simp only [ofJson?, Option.bind_eq_bind, ↓Option.bind_eq_some_iff, Option.pure_def]
  constructor
  · rintro ⟨fields, hfields, name, hname, desc, hdesc, ⟨⟩⟩
    exact ⟨fields, hfields, hname, hdesc⟩
  · rintro ⟨fields, hfields, h⟩
    exact ⟨fields, hfields, _, h.name, _, h.desc, rfl⟩

theorem faithful : Faithful toJson ofJson? FieldSignature.Fits :=
  readsRecord.faithful
    (fun _ h => ⟨_, rfl, (StringId.faithful.opt nofun).reads h.name,
      StringId.faithful.reads h.desc⟩)
    (fun _ _ h => ⟨StringId.faithful.of_nullable h.name, StringId.faithful.of_required h.desc⟩)

theorem fillsIn : FillsIn fieldNames toJson ofJson? defaults := by
  refine readsRecord.fillsIn fun fields _ h => ⟨_, rfl, ?_⟩
  simp only [defaults, List.forall_mem_cons]
  exact ⟨lookup_of_absent (Json.opt StringId.toJson) h.name rfl, nofun⟩

end FieldSignature

/-- Whether the numbers and flags of the signature fit into 32 bits. -/
structure PropertySignature.Fits (s : PropertySignature) : Prop where
  field : ∀ field ∈ s.field, field.Fits
  getter : ∀ getter ∈ s.getter, getter.Fits
  setter : ∀ setter ∈ s.setter, setter.Fits
  holder : ∀ holder ∈ s.holder, holder.Fits

/-- What the fields of the signature hold. -/
structure PropertySignature.ReadFrom (fields : Fields) (s : PropertySignature) : Prop where
  field : fields.nullable "field" FieldSignature.ofJson? = some s.field
  getter : fields.nullable "getter" MethodSignature.ofJson? = some s.getter
  setter : fields.nullable "setter" MethodSignature.ofJson? = some s.setter
  holder : fields.nullable "synthetic_method" MethodSignature.ofJson? = some s.holder

namespace PropertySignature

def fieldNames : List String :=
  ["field", "getter", "setter", "synthetic_method"]

/-- The fields that may be left out, as they are written then. -/
def defaults : List (String × Json) :=
  [("field", .null), ("getter", .null), ("setter", .null), ("synthetic_method", .null)]

theorem readsRecord : ReadsRecord fieldNames ofJson? ReadFrom := by
  intro j s
  simp only [ofJson?, Option.bind_eq_bind, ↓Option.bind_eq_some_iff, Option.pure_def]
  constructor
  · rintro ⟨fields, hfields, field, hfield, getter, hgetter, setter, hsetter, holder,
      hholder, ⟨⟩⟩
    exact ⟨fields, hfields, hfield, hgetter, hsetter, hholder⟩
  · rintro ⟨fields, hfields, h⟩
    exact ⟨fields, hfields, _, h.field, _, h.getter, _, h.setter, _, h.holder, rfl⟩

theorem faithful : Faithful toJson ofJson? PropertySignature.Fits :=
  readsRecord.faithful
    (fun _ h => ⟨_, rfl, (FieldSignature.faithful.opt nofun).reads h.field,
      (MethodSignature.faithful.opt nofun).reads h.getter,
      (MethodSignature.faithful.opt nofun).reads h.setter,
      (MethodSignature.faithful.opt nofun).reads h.holder⟩)
    (fun _ _ h => ⟨FieldSignature.faithful.of_nullable h.field,
      MethodSignature.faithful.of_nullable h.getter,
      MethodSignature.faithful.of_nullable h.setter,
      MethodSignature.faithful.of_nullable h.holder⟩)

theorem fillsIn : FillsIn fieldNames toJson ofJson? defaults := by
  refine readsRecord.fillsIn fun fields _ h => ⟨_, rfl, ?_⟩
  simp only [defaults, List.forall_mem_cons]
  exact ⟨lookup_of_absent (Json.opt FieldSignature.toJson) h.field rfl,
    lookup_of_absent (Json.opt MethodSignature.toJson) h.getter rfl,
    lookup_of_absent (Json.opt MethodSignature.toJson) h.setter rfl,
    lookup_of_absent (Json.opt MethodSignature.toJson) h.holder rfl, nofun⟩

end PropertySignature

/-- Whether the numbers and flags of the value parameter fit into 32 bits. -/
structure ParameterDescriptor.Fits (p : ParameterDescriptor) : Prop where
  name : p.name.Fits
  type : p.type.Fits
  varargElement : ∀ type ∈ p.varargElement, type.Fits

/-- What the fields of the value parameter hold. -/
structure ParameterDescriptor.ReadFrom (fields : Fields) (p : ParameterDescriptor) : Prop where
  name : fields.required "name" StringId.ofJson? = some p.name
  declaresDefault : fields.optional "declares_default" false bool? = some p.declaresDefault
  type : fields.required "ty" TypeRef.ofJson? = some p.type
  varargElement : fields.nullable "vararg_element" TypeRef.ofJson? = some p.varargElement

namespace ParameterDescriptor

def fieldNames : List String :=
  ["name", "declares_default", "ty", "vararg_element"]

/-- The fields that may be left out, as they are written then. -/
def defaults : List (String × Json) :=
  [("declares_default", .bool false), ("vararg_element", .null)]

theorem readsRecord : ReadsRecord fieldNames ofJson? ReadFrom := by
  intro j p
  simp only [ofJson?, Option.bind_eq_bind, ↓Option.bind_eq_some_iff, Option.pure_def]
  constructor
  · rintro ⟨fields, hfields, name, hname, declaresDefault, hdeclaresDefault, type, htype,
      varargElement, hvarargElement, ⟨⟩⟩
    exact ⟨fields, hfields, hname, hdeclaresDefault, htype, hvarargElement⟩
  · rintro ⟨fields, hfields, h⟩
    exact ⟨fields, hfields, _, h.name, _, h.declaresDefault, _, h.type, _, h.varargElement, rfl⟩

theorem faithful : Faithful toJson ofJson? ParameterDescriptor.Fits :=
  readsRecord.faithful
    (fun _ h => ⟨_, rfl, StringId.faithful.reads h.name, faithful_bool.reads trivial,
      TypeRef.faithful.reads h.type,
      (TypeRef.faithful.opt TypeRef.toJson_ne_null).reads h.varargElement⟩)
    (fun _ _ h => ⟨StringId.faithful.of_required h.name, TypeRef.faithful.of_required h.type,
      TypeRef.faithful.of_nullable h.varargElement⟩)

theorem fillsIn : FillsIn fieldNames toJson ofJson? defaults := by
  refine readsRecord.fillsIn fun fields _ h => ⟨_, rfl, ?_⟩
  simp only [defaults, List.forall_mem_cons]
  exact ⟨lookup_of_absent .bool h.declaresDefault rfl,
    lookup_of_absent (Json.opt TypeRef.toJson) h.varargElement rfl, nofun⟩

end ParameterDescriptor

/-- Whether the numbers and flags of the type parameter fit into 32 bits. -/
structure TypeParameterDescriptor.Fits (p : TypeParameterDescriptor) : Prop where
  id : p.id < UInt32.size
  name : p.name.Fits
  upperBounds : ∀ type ∈ p.upperBounds, type.Fits

/-- What the fields of the type parameter hold. -/
structure TypeParameterDescriptor.ReadFrom (fields : Fields) (p : TypeParameterDescriptor) :
    Prop where
  id : fields.required "id" Json.word? = some p.id
  name : fields.required "name" StringId.ofJson? = some p.name
  variance : fields.optional "variance" .invariant Named.ofJson? = some p.variance
  reified : fields.optional "reified" false bool? = some p.reified
  upperBounds : fields.optional "upper_bounds" [] (list? TypeRef.ofJson?) = some p.upperBounds

namespace TypeParameterDescriptor

def fieldNames : List String :=
  ["id", "name", "variance", "reified", "upper_bounds"]

/-- The fields that may be left out, as they are written then. -/
def defaults : List (String × Json) :=
  [("variance", .string "Invariant"), ("reified", .bool false), ("upper_bounds", .array [])]

theorem readsRecord : ReadsRecord fieldNames ofJson? ReadFrom := by
  intro j p
  simp only [ofJson?, Option.bind_eq_bind, ↓Option.bind_eq_some_iff, Option.pure_def]
  constructor
  · rintro ⟨fields, hfields, id, hid, name, hname, variance, hvariance, reified, hreified,
      upperBounds, hupperBounds, ⟨⟩⟩
    exact ⟨fields, hfields, hid, hname, hvariance, hreified, hupperBounds⟩
  · rintro ⟨fields, hfields, h⟩
    exact ⟨fields, hfields, _, h.id, _, h.name, _, h.variance, _, h.reified, _,
      h.upperBounds, rfl⟩

theorem faithful : Faithful toJson ofJson? TypeParameterDescriptor.Fits :=
  readsRecord.faithful
    (fun _ h => ⟨_, rfl, faithful_word.reads h.id, StringId.faithful.reads h.name,
      Named.faithful.reads trivial, faithful_bool.reads trivial,
      TypeRef.faithful.list.reads h.upperBounds⟩)
    (fun _ _ h => ⟨faithful_word.of_required h.id, StringId.faithful.of_required h.name,
      TypeRef.faithful.of_list h.upperBounds⟩)

theorem fillsIn : FillsIn fieldNames toJson ofJson? defaults := by
  refine readsRecord.fillsIn fun fields _ h => ⟨_, rfl, ?_⟩
  simp only [defaults, List.forall_mem_cons]
  exact ⟨lookup_of_absent Named.toJson h.variance rfl, lookup_of_absent .bool h.reified rfl,
    lookup_of_absent (Json.list TypeRef.toJson) h.upperBounds rfl, nofun⟩

end TypeParameterDescriptor

/-- Whether the numbers and flags of the function fit into 32 bits. -/
structure FunctionDescriptor.Fits (f : FunctionDescriptor) : Prop where
  name : f.name.Fits
  flags : f.flags.bits < UInt32.size
  typeParameters : ∀ p ∈ f.typeParameters, p.Fits
  receiver : ∀ type ∈ f.receiver, type.Fits
  valueParameters : ∀ p ∈ f.valueParameters, p.Fits
  returnType : f.returnType.Fits
  signature : ∀ s ∈ f.signature, s.Fits

/-- What the fields of the function hold. -/
structure FunctionDescriptor.ReadFrom (fields : Fields) (f : FunctionDescriptor) : Prop where
  name : fields.required "name" StringId.ofJson? = some f.name
  modality : fields.optional "modality" .final Named.ofJson? = some f.modality
  visibility : fields.optional "visibility" .everyone Named.ofJson? = some f.visibility
  flags : fields.optional "flags" .empty Flags.ofJson? = some f.flags
  typeParameters :
    fields.optional "type_parameters" [] (list? TypeParameterDescriptor.ofJson?) =
      some f.typeParameters
  receiver : fields.nullable "receiver" TypeRef.ofJson? = some f.receiver
  valueParameters :
    fields.optional "value_parameters" [] (list? ParameterDescriptor.ofJson?) =
      some f.valueParameters
  returnType : fields.required "return_type" TypeRef.ofJson? = some f.returnType
  signature : fields.nullable "jvm_signature" MethodSignature.ofJson? = some f.signature

namespace FunctionDescriptor

def fieldNames : List String :=
  ["name", "modality", "visibility", "flags", "type_parameters", "receiver", "value_parameters",
    "return_type", "jvm_signature"]

/-- The fields that may be left out, as they are written then. -/
def defaults : List (String × Json) :=
  [("modality", .string "Final"), ("visibility", .string "Public"), ("flags", .string ""),
    ("type_parameters", .array []), ("receiver", .null), ("value_parameters", .array []),
    ("jvm_signature", .null)]

theorem readsRecord : ReadsRecord fieldNames ofJson? ReadFrom := by
  intro j f
  simp only [ofJson?, Option.bind_eq_bind, ↓Option.bind_eq_some_iff, Option.pure_def]
  constructor
  · rintro ⟨fields, hfields, name, hname, modality, hmodality, visibility, hvisibility, flags,
      hflags, typeParameters, htypeParameters, receiver, hreceiver, valueParameters,
      hvalueParameters, returnType, hreturnType, signature, hsignature, ⟨⟩⟩
    exact ⟨fields, hfields, hname, hmodality, hvisibility, hflags, htypeParameters, hreceiver,
      hvalueParameters, hreturnType, hsignature⟩
  · rintro ⟨fields, hfields, h⟩
    exact ⟨fields, hfields, _, h.name, _, h.modality, _, h.visibility, _, h.flags, _,
      h.typeParameters, _, h.receiver, _, h.valueParameters, _, h.returnType, _, h.signature, rfl⟩

theorem faithful : Faithful toJson ofJson? FunctionDescriptor.Fits :=
  readsRecord.faithful
    (fun _ h => ⟨_, rfl, StringId.faithful.reads h.name, Named.faithful.reads trivial,
      Named.faithful.reads trivial, Flags.faithful.reads h.flags,
      TypeParameterDescriptor.faithful.list.reads h.typeParameters,
      (TypeRef.faithful.opt TypeRef.toJson_ne_null).reads h.receiver,
      ParameterDescriptor.faithful.list.reads h.valueParameters,
      TypeRef.faithful.reads h.returnType,
      (MethodSignature.faithful.opt nofun).reads h.signature⟩)
    (fun _ _ h => ⟨StringId.faithful.of_required h.name,
      Flags.faithful.of_optional Flags.empty_lt h.flags,
      TypeParameterDescriptor.faithful.of_list h.typeParameters,
      TypeRef.faithful.of_nullable h.receiver,
      ParameterDescriptor.faithful.of_list h.valueParameters,
      TypeRef.faithful.of_required h.returnType,
      MethodSignature.faithful.of_nullable h.signature⟩)

theorem fillsIn : FillsIn fieldNames toJson ofJson? defaults := by
  refine readsRecord.fillsIn fun fields _ h => ⟨_, rfl, ?_⟩
  simp only [defaults, List.forall_mem_cons]
  exact ⟨lookup_of_absent Named.toJson h.modality rfl,
    lookup_of_absent Named.toJson h.visibility rfl, lookup_of_absent Flags.toJson h.flags rfl,
    lookup_of_absent (Json.list TypeParameterDescriptor.toJson) h.typeParameters rfl,
    lookup_of_absent (Json.opt TypeRef.toJson) h.receiver rfl,
    lookup_of_absent (Json.list ParameterDescriptor.toJson) h.valueParameters rfl,
    lookup_of_absent (Json.opt MethodSignature.toJson) h.signature rfl, nofun⟩

end FunctionDescriptor

/-- Whether the numbers and flags of the constructor fit into 32 bits. -/
structure ConstructorDescriptor.Fits (c : ConstructorDescriptor) : Prop where
  valueParameters : ∀ p ∈ c.valueParameters, p.Fits
  signature : ∀ s ∈ c.signature, s.Fits

/-- What the fields of the constructor hold. -/
structure ConstructorDescriptor.ReadFrom (fields : Fields) (c : ConstructorDescriptor) : Prop where
  kind : fields.optional "kind" .primary Named.ofJson? = some c.kind
  visibility : fields.optional "visibility" .everyone Named.ofJson? = some c.visibility
  valueParameters :
    fields.optional "value_parameters" [] (list? ParameterDescriptor.ofJson?) =
      some c.valueParameters
  signature : fields.nullable "jvm_signature" MethodSignature.ofJson? = some c.signature

namespace ConstructorDescriptor

def fieldNames : List String :=
  ["kind", "visibility", "value_parameters", "jvm_signature"]

/-- The fields that may be left out, as they are written then. -/
def defaults : List (String × Json) :=
  [("kind", .string "Primary"), ("visibility", .string "Public"), ("value_parameters", .array []),
    ("jvm_signature", .null)]

theorem readsRecord : ReadsRecord fieldNames ofJson? ReadFrom := by
  intro j c
  simp only [ofJson?, Option.bind_eq_bind, ↓Option.bind_eq_some_iff, Option.pure_def]
  constructor
  · rintro ⟨fields, hfields, kind, hkind, visibility, hvisibility, valueParameters,
      hvalueParameters, signature, hsignature, ⟨⟩⟩
    exact ⟨fields, hfields, hkind, hvisibility, hvalueParameters, hsignature⟩
  · rintro ⟨fields, hfields, h⟩
    exact ⟨fields, hfields, _, h.kind, _, h.visibility, _, h.valueParameters, _, h.signature, rfl⟩

theorem faithful : Faithful toJson ofJson? ConstructorDescriptor.Fits :=
  readsRecord.faithful
    (fun _ h => ⟨_, rfl, Named.faithful.reads trivial, Named.faithful.reads trivial,
      ParameterDescriptor.faithful.list.reads h.valueParameters,
      (MethodSignature.faithful.opt nofun).reads h.signature⟩)
    (fun _ _ h => ⟨ParameterDescriptor.faithful.of_list h.valueParameters,
      MethodSignature.faithful.of_nullable h.signature⟩)

theorem fillsIn : FillsIn fieldNames toJson ofJson? defaults := by
  refine readsRecord.fillsIn fun fields _ h => ⟨_, rfl, ?_⟩
  simp only [defaults, List.forall_mem_cons]
  exact ⟨lookup_of_absent Named.toJson h.kind rfl, lookup_of_absent Named.toJson h.visibility rfl,
    lookup_of_absent (Json.list ParameterDescriptor.toJson) h.valueParameters rfl,
    lookup_of_absent (Json.opt MethodSignature.toJson) h.signature rfl, nofun⟩

end ConstructorDescriptor

/-- Whether the numbers and flags of the property fit into 32 bits. -/
structure PropertyDescriptor.Fits (p : PropertyDescriptor) : Prop where
  name : p.name.Fits
  flags : p.flags.bits < UInt32.size
  returnType : p.returnType.Fits
  receiver : ∀ type ∈ p.receiver, type.Fits
  members : p.members.Fits

/-- What the fields of the property hold. -/
structure PropertyDescriptor.ReadFrom (fields : Fields) (p : PropertyDescriptor) : Prop where
  name : fields.required "name" StringId.ofJson? = some p.name
  modality : fields.optional "modality" .final Named.ofJson? = some p.modality
  visibility : fields.optional "visibility" .everyone Named.ofJson? = some p.visibility
  flags : fields.optional "flags" .empty Flags.ofJson? = some p.flags
  returnType : fields.required "return_type" TypeRef.ofJson? = some p.returnType
  receiver : fields.nullable "receiver" TypeRef.ofJson? = some p.receiver
  members : fields.optional "jvm" {} PropertySignature.ofJson? = some p.members

namespace PropertyDescriptor

def fieldNames : List String :=
  ["name", "modality", "visibility", "flags", "return_type", "receiver", "jvm"]

/-- The fields that may be left out, as they are written then. -/
def defaults : List (String × Json) :=
  [("modality", .string "Final"), ("visibility", .string "Public"), ("flags", .string ""),
    ("receiver", .null), ("jvm", PropertySignature.toJson {})]

theorem readsRecord : ReadsRecord fieldNames ofJson? ReadFrom := by
  intro j p
  simp only [ofJson?, Option.bind_eq_bind, ↓Option.bind_eq_some_iff, Option.pure_def]
  constructor
  · rintro ⟨fields, hfields, name, hname, modality, hmodality, visibility, hvisibility, flags,
      hflags, returnType, hreturnType, receiver, hreceiver, members, hmembers, ⟨⟩⟩
    exact ⟨fields, hfields, hname, hmodality, hvisibility, hflags, hreturnType, hreceiver,
      hmembers⟩
  · rintro ⟨fields, hfields, h⟩
    exact ⟨fields, hfields, _, h.name, _, h.modality, _, h.visibility, _, h.flags, _,
      h.returnType, _, h.receiver, _, h.members, rfl⟩

theorem faithful : Faithful toJson ofJson? PropertyDescriptor.Fits :=
  readsRecord.faithful
    (fun _ h => ⟨_, rfl, StringId.faithful.reads h.name, Named.faithful.reads trivial,
      Named.faithful.reads trivial, Flags.faithful.reads h.flags,
      TypeRef.faithful.reads h.returnType,
      (TypeRef.faithful.opt TypeRef.toJson_ne_null).reads h.receiver,
      PropertySignature.faithful.reads h.members⟩)
    (fun _ _ h => ⟨StringId.faithful.of_required h.name,
      Flags.faithful.of_optional Flags.empty_lt h.flags,
      TypeRef.faithful.of_required h.returnType, TypeRef.faithful.of_nullable h.receiver,
      PropertySignature.faithful.of_optional ⟨by simp, by simp, by simp, by simp⟩ h.members⟩)

theorem fillsIn : FillsIn fieldNames toJson ofJson? defaults := by
  refine readsRecord.fillsIn fun fields _ h => ⟨_, rfl, ?_⟩
  simp only [defaults, List.forall_mem_cons]
  exact ⟨lookup_of_absent Named.toJson h.modality rfl,
    lookup_of_absent Named.toJson h.visibility rfl, lookup_of_absent Flags.toJson h.flags rfl,
    lookup_of_absent (Json.opt TypeRef.toJson) h.receiver rfl,
    lookup_of_absent PropertySignature.toJson h.members rfl, nofun⟩

end PropertyDescriptor

/-- Whether the numbers and flags of the class fit into 32 bits. -/
structure ClassDescriptor.Fits (c : ClassDescriptor) : Prop where
  qualifiedName : c.qualifiedName.Fits
  flags : c.flags.bits < UInt32.size
  companionName : ∀ name ∈ c.companionName, name.Fits
  typeParameters : ∀ p ∈ c.typeParameters, p.Fits
  constructors : ∀ d ∈ c.constructors, d.Fits
  functions : ∀ f ∈ c.functions, f.Fits
  properties : ∀ p ∈ c.properties, p.Fits
  enumEntries : ∀ name ∈ c.enumEntries, name.Fits
  moduleName : ∀ name ∈ c.moduleName, name.Fits

/-- What the fields of the class hold. -/
structure ClassDescriptor.ReadFrom (fields : Fields) (c : ClassDescriptor) : Prop where
  qualifiedName : fields.required "fq_name" StringId.ofJson? = some c.qualifiedName
  kind : fields.required "kind" Named.ofJson? = some c.kind
  modality : fields.optional "modality" .final Named.ofJson? = some c.modality
  visibility : fields.optional "visibility" .everyone Named.ofJson? = some c.visibility
  flags : fields.optional "flags" .empty Flags.ofJson? = some c.flags
  companionName : fields.nullable "companion_object_name" StringId.ofJson? = some c.companionName
  typeParameters :
    fields.optional "type_parameters" [] (list? TypeParameterDescriptor.ofJson?) =
      some c.typeParameters
  constructors :
    fields.optional "constructors" [] (list? ConstructorDescriptor.ofJson?) = some c.constructors
  functions : fields.optional "functions" [] (list? FunctionDescriptor.ofJson?) = some c.functions
  properties :
    fields.optional "properties" [] (list? PropertyDescriptor.ofJson?) = some c.properties
  enumEntries : fields.optional "enum_entries" [] (list? StringId.ofJson?) = some c.enumEntries
  moduleName : fields.nullable "module_name" StringId.ofJson? = some c.moduleName

namespace ClassDescriptor

def fieldNames : List String :=
  ["fq_name", "kind", "modality", "visibility", "flags", "companion_object_name",
    "type_parameters", "constructors", "functions", "properties", "enum_entries", "module_name"]

/-- The fields that may be left out, as they are written then. -/
def defaults : List (String × Json) :=
  [("modality", .string "Final"), ("visibility", .string "Public"), ("flags", .string ""),
    ("companion_object_name", .null), ("type_parameters", .array []), ("constructors", .array []),
    ("functions", .array []), ("properties", .array []), ("enum_entries", .array []),
    ("module_name", .null)]

theorem readsRecord : ReadsRecord fieldNames ofJson? ReadFrom := by
  intro j c
  simp only [ofJson?, Option.bind_eq_bind, ↓Option.bind_eq_some_iff, Option.pure_def]
  constructor
  · rintro ⟨fields, hfields, qualifiedName, hqualifiedName, kind, hkind, modality, hmodality,
      visibility, hvisibility, flags, hflags, companionName, hcompanionName, typeParameters,
      htypeParameters, constructors, hconstructors, functions, hfunctions, properties,
      hproperties, enumEntries, henumEntries, moduleName, hmoduleName, ⟨⟩⟩
    exact ⟨fields, hfields, hqualifiedName, hkind, hmodality, hvisibility, hflags, hcompanionName,
      htypeParameters, hconstructors, hfunctions, hproperties, henumEntries, hmoduleName⟩
  · rintro ⟨fields, hfields, h⟩
    exact ⟨fields, hfields, _, h.qualifiedName, _, h.kind, _, h.modality, _, h.visibility, _,
      h.flags, _, h.companionName, _, h.typeParameters, _, h.constructors, _, h.functions, _,
      h.properties, _, h.enumEntries, _, h.moduleName, rfl⟩

theorem faithful : Faithful toJson ofJson? ClassDescriptor.Fits :=
  readsRecord.faithful
    (fun _ h => ⟨_, rfl, StringId.faithful.reads h.qualifiedName, Named.faithful.reads trivial,
      Named.faithful.reads trivial, Named.faithful.reads trivial, Flags.faithful.reads h.flags,
      (StringId.faithful.opt nofun).reads h.companionName,
      TypeParameterDescriptor.faithful.list.reads h.typeParameters,
      ConstructorDescriptor.faithful.list.reads h.constructors,
      FunctionDescriptor.faithful.list.reads h.functions,
      PropertyDescriptor.faithful.list.reads h.properties,
      StringId.faithful.list.reads h.enumEntries,
      (StringId.faithful.opt nofun).reads h.moduleName⟩)
    (fun _ _ h => ⟨StringId.faithful.of_required h.qualifiedName,
      Flags.faithful.of_optional Flags.empty_lt h.flags,
      StringId.faithful.of_nullable h.companionName,
      TypeParameterDescriptor.faithful.of_list h.typeParameters,
      ConstructorDescriptor.faithful.of_list h.constructors,
      FunctionDescriptor.faithful.of_list h.functions,
      PropertyDescriptor.faithful.of_list h.properties, StringId.faithful.of_list h.enumEntries,
      StringId.faithful.of_nullable h.moduleName⟩)

theorem fillsIn : FillsIn fieldNames toJson ofJson? defaults := by
  refine readsRecord.fillsIn fun fields _ h => ⟨_, rfl, ?_⟩
  simp only [defaults, List.forall_mem_cons]
  exact ⟨lookup_of_absent Named.toJson h.modality rfl,
    lookup_of_absent Named.toJson h.visibility rfl, lookup_of_absent Flags.toJson h.flags rfl,
    lookup_of_absent (Json.opt StringId.toJson) h.companionName rfl,
    lookup_of_absent (Json.list TypeParameterDescriptor.toJson) h.typeParameters rfl,
    lookup_of_absent (Json.list ConstructorDescriptor.toJson) h.constructors rfl,
    lookup_of_absent (Json.list FunctionDescriptor.toJson) h.functions rfl,
    lookup_of_absent (Json.list PropertyDescriptor.toJson) h.properties rfl,
    lookup_of_absent (Json.list StringId.toJson) h.enumEntries rfl,
    lookup_of_absent (Json.opt StringId.toJson) h.moduleName rfl, nofun⟩

end ClassDescriptor

/-- Whether the numbers and flags of the file fit into 32 bits. -/
structure PackageDescriptor.Fits (p : PackageDescriptor) : Prop where
  functions : ∀ f ∈ p.functions, f.Fits
  properties : ∀ d ∈ p.properties, d.Fits
  moduleName : ∀ name ∈ p.moduleName, name.Fits

/-- What the fields of the file hold. -/
structure PackageDescriptor.ReadFrom (fields : Fields) (p : PackageDescriptor) : Prop where
  functions : fields.optional "functions" [] (list? FunctionDescriptor.ofJson?) = some p.functions
  properties :
    fields.optional "properties" [] (list? PropertyDescriptor.ofJson?) = some p.properties
  moduleName : fields.nullable "module_name" StringId.ofJson? = some p.moduleName

namespace PackageDescriptor

def fieldNames : List String :=
  ["functions", "properties", "module_name"]

/-- The fields that may be left out, as they are written then. -/
def defaults : List (String × Json) :=
  [("functions", .array []), ("properties", .array []), ("module_name", .null)]

theorem readsRecord : ReadsRecord fieldNames ofJson? ReadFrom := by
  intro j p
  simp only [ofJson?, Option.bind_eq_bind, ↓Option.bind_eq_some_iff, Option.pure_def]
  constructor
  · rintro ⟨fields, hfields, functions, hfunctions, properties, hproperties, moduleName,
      hmoduleName, ⟨⟩⟩
    exact ⟨fields, hfields, hfunctions, hproperties, hmoduleName⟩
  · rintro ⟨fields, hfields, h⟩
    exact ⟨fields, hfields, _, h.functions, _, h.properties, _, h.moduleName, rfl⟩

theorem faithful : Faithful toJson ofJson? PackageDescriptor.Fits :=
  readsRecord.faithful
    (fun _ h => ⟨_, rfl, FunctionDescriptor.faithful.list.reads h.functions,
      PropertyDescriptor.faithful.list.reads h.properties,
      (StringId.faithful.opt nofun).reads h.moduleName⟩)
    (fun _ _ h => ⟨FunctionDescriptor.faithful.of_list h.functions,
      PropertyDescriptor.faithful.of_list h.properties,
      StringId.faithful.of_nullable h.moduleName⟩)

theorem fillsIn : FillsIn fieldNames toJson ofJson? defaults := by
  refine readsRecord.fillsIn fun fields _ h => ⟨_, rfl, ?_⟩
  simp only [defaults, List.forall_mem_cons]
  exact ⟨lookup_of_absent (Json.list FunctionDescriptor.toJson) h.functions rfl,
    lookup_of_absent (Json.list PropertyDescriptor.toJson) h.properties rfl,
    lookup_of_absent (Json.opt StringId.toJson) h.moduleName rfl, nofun⟩

end PackageDescriptor

/-- Whether all that a class refers to fits its form. -/
structure ClassMetadata.Fits (m : ClassMetadata) : Prop where
  strings : m.strings.toList.Nodup
  descriptor : m.descriptor.Fits

/-- What the fields of the class hold. -/
structure ClassMetadata.ReadFrom (fields : Fields) (m : ClassMetadata) : Prop where
  strings : fields.required "strings" StringTable.ofJson? = some m.strings
  descriptor : fields.required "class" ClassDescriptor.ofJson? = some m.descriptor

namespace ClassMetadata

def fieldNames : List String :=
  ["strings", "class"]

theorem readsRecord : ReadsRecord fieldNames ofJson? ReadFrom := by
  intro j m
  simp only [ofJson?, Option.bind_eq_bind, ↓Option.bind_eq_some_iff, Option.pure_def]
  constructor
  · rintro ⟨fields, hfields, strings, hstrings, descriptor, hdescriptor, ⟨⟩⟩
    exact ⟨fields, hfields, hstrings, hdescriptor⟩
  · rintro ⟨fields, hfields, h⟩
    exact ⟨fields, hfields, _, h.strings, _, h.descriptor, rfl⟩

theorem faithful : Faithful toJson ofJson? ClassMetadata.Fits :=
  readsRecord.faithful
    (fun _ h => ⟨_, rfl, StringTable.faithful.reads h.strings,
      ClassDescriptor.faithful.reads h.descriptor⟩)
    (fun _ _ h => ⟨StringTable.faithful.of_required h.strings,
      ClassDescriptor.faithful.of_required h.descriptor⟩)

end ClassMetadata

/-- Whether all that a file refers to fits its form. -/
structure PackageMetadata.Fits (m : PackageMetadata) : Prop where
  strings : m.strings.toList.Nodup
  descriptor : m.descriptor.Fits

/-- What the fields of the file hold. -/
structure PackageMetadata.ReadFrom (fields : Fields) (m : PackageMetadata) : Prop where
  strings : fields.required "strings" StringTable.ofJson? = some m.strings
  descriptor : fields.required "package" PackageDescriptor.ofJson? = some m.descriptor

namespace PackageMetadata

def fieldNames : List String :=
  ["strings", "package"]

theorem readsRecord : ReadsRecord fieldNames ofJson? ReadFrom := by
  intro j m
  simp only [ofJson?, Option.bind_eq_bind, ↓Option.bind_eq_some_iff, Option.pure_def]
  constructor
  · rintro ⟨fields, hfields, strings, hstrings, descriptor, hdescriptor, ⟨⟩⟩
    exact ⟨fields, hfields, hstrings, hdescriptor⟩
  · rintro ⟨fields, hfields, h⟩
    exact ⟨fields, hfields, _, h.strings, _, h.descriptor, rfl⟩

theorem faithful : Faithful toJson ofJson? PackageMetadata.Fits :=
  readsRecord.faithful
    (fun _ h => ⟨_, rfl, StringTable.faithful.reads h.strings,
      PackageDescriptor.faithful.reads h.descriptor⟩)
    (fun _ _ h => ⟨StringTable.faithful.of_required h.strings,
      PackageDescriptor.faithful.of_required h.descriptor⟩)

end PackageMetadata

namespace Metadata

/-- Whether all parts fit their forms: their numbers and flags fit into 32 bits, and no string
stands twice in a table. -/
def Fits : Metadata → Prop
  | .ofClass m => m.Fits
  | .fileFacade m | .multiFilePart m _ => m.Fits
  | .multiFileFacade _ | .synthetic => True

theorem faithful : Faithful toJson ofJson? Metadata.Fits where
  reads {m} h := by
    cases m with
    | ofClass m => exact congrArg (Option.map Metadata.ofClass) (ClassMetadata.faithful.reads h)
    | fileFacade m =>
      exact congrArg (Option.map Metadata.fileFacade) (PackageMetadata.faithful.reads h)
    | multiFileFacade parts =>
      have hparts := faithful_string.list.reads (a := parts) (by simp)
      exact congrArg (Option.map Metadata.multiFileFacade) hparts
    | multiFilePart m facade =>
      have hm := PackageMetadata.faithful.reads h
      simp [toJson, ofJson?, Fields.required, List.lookup_cons, hm, string?]
    | synthetic => rfl
  fits {j m} h := by
    unfold ofJson? at h
    split at h
    · obtain rfl := Option.some.inj h
      trivial
    · obtain rfl := Option.some.inj h
      trivial
    · obtain ⟨m, hm, rfl⟩ := Option.map_eq_some_iff.mp h
      exact ClassMetadata.faithful.fits hm
    · obtain ⟨m, hm, rfl⟩ := Option.map_eq_some_iff.mp h
      exact PackageMetadata.faithful.fits hm
    · obtain ⟨parts, -, rfl⟩ := Option.map_eq_some_iff.mp h
      trivial
    · obtain ⟨m, hm, h⟩ := Option.bind_eq_some_iff.mp h
      obtain ⟨facade, -, h⟩ := Option.bind_eq_some_iff.mp h
      obtain rfl := Option.some.inj h
      exact PackageMetadata.faithful.of_required hm
    · cases h

/-- Whether the parts of metadata are written with all their fields, those that were left out with
their defaults. -/
structure WritesDefaults : Prop where
  typeRef (n : Nat) :
    FillsIn TypeRef.fieldNames TypeRef.toJson (TypeRef.readWithin n) TypeRef.defaults
  projection (n : Nat) :
    FillsIn Projection.fieldNames Projection.toJson (TypeRef.readProjection n) Projection.defaults
  fieldSignature : FillsIn FieldSignature.fieldNames FieldSignature.toJson FieldSignature.ofJson?
    FieldSignature.defaults
  propertySignature : FillsIn PropertySignature.fieldNames PropertySignature.toJson
    PropertySignature.ofJson? PropertySignature.defaults
  parameter : FillsIn ParameterDescriptor.fieldNames ParameterDescriptor.toJson
    ParameterDescriptor.ofJson? ParameterDescriptor.defaults
  typeParameter : FillsIn TypeParameterDescriptor.fieldNames TypeParameterDescriptor.toJson
    TypeParameterDescriptor.ofJson? TypeParameterDescriptor.defaults
  function : FillsIn FunctionDescriptor.fieldNames FunctionDescriptor.toJson
    FunctionDescriptor.ofJson? FunctionDescriptor.defaults
  constructor : FillsIn ConstructorDescriptor.fieldNames ConstructorDescriptor.toJson
    ConstructorDescriptor.ofJson? ConstructorDescriptor.defaults
  property : FillsIn PropertyDescriptor.fieldNames PropertyDescriptor.toJson
    PropertyDescriptor.ofJson? PropertyDescriptor.defaults
  ofClass : FillsIn ClassDescriptor.fieldNames ClassDescriptor.toJson ClassDescriptor.ofJson?
    ClassDescriptor.defaults
  ofPackage : FillsIn PackageDescriptor.fieldNames PackageDescriptor.toJson
    PackageDescriptor.ofJson? PackageDescriptor.defaults

/-- Metadata that fits is read back from what is written of it. So is all metadata that has been
read, and what it left out is written with its default. -/
theorem survives_json :
    (∀ m : Metadata, m.Fits → ofJson? m.toJson = some m) ∧
      (∀ (j : Json) (m : Metadata), ofJson? j = some m → m.Fits ∧ ofJson? m.toJson = some m) ∧
      WritesDefaults :=
  ⟨fun _ => faithful.reads, fun _ _ h => ⟨faithful.fits h, faithful.again h⟩,
    { typeRef := TypeRef.fillsIn
      projection := Projection.fillsIn
      fieldSignature := FieldSignature.fillsIn
      propertySignature := PropertySignature.fillsIn
      parameter := ParameterDescriptor.fillsIn
      typeParameter := TypeParameterDescriptor.fillsIn
      function := FunctionDescriptor.fillsIn
      constructor := ConstructorDescriptor.fillsIn
      property := PropertyDescriptor.fillsIn
      ofClass := ClassDescriptor.fillsIn
      ofPackage := PackageDescriptor.fillsIn }⟩

/-- A data class with a type parameter, with a function that answers a list of anything, and with a
property that has a field and a getter, as it may be written by hand. -/
def point : Json :=
  .object [("Class", .object [
    ("strings", .array [.string "com/example/Point", .string "kotlin/Int", .string "x",
      .string "getX", .string "()I", .string "I", .string "T", .string "kotlin/collections/List"]),
    ("class", .object [
      ("fq_name", .nat 0), ("kind", .string "Class"), ("flags", .string "DATA"),
      ("type_parameters", .array [
        .object [("id", .nat 0), ("name", .nat 6), ("variance", .string "Out")]]),
      ("functions", .array [.object [
        ("name", .nat 2), ("flags", .string "SUSPEND | OPERATOR"),
        ("return_type", .object [
          ("classifier", .object [("Class", .nat 7)]),
          ("arguments", .array [.object [("variance", .string "Invariant")]])])]]),
      ("properties", .array [.object [
        ("name", .nat 2),
        ("return_type", .object [("classifier", .object [("Class", .nat 1)])]),
        ("jvm", .object [
          ("field", .object [("desc", .nat 5)]),
          ("getter", .object [("name", .nat 3), ("desc", .nat 4)])])]])])])]

theorem survives_json_point : ∃ m, ofJson? point = some m ∧ m.Fits ∧ ofJson? m.toJson = some m := by
  have hread : (ofJson? point).isSome := by decide +kernel
  obtain ⟨m, hm⟩ := Option.isSome_iff_exists.mp hread
  have hfits : m.Fits := (survives_json.2.1 _ _ hm).1
  exact ⟨m, hm, hfits, survives_json.1 m hfits⟩

end Metadata

end Correspondence
