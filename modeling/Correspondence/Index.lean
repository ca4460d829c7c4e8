import Correspondence.Lookup
import Correspondence.Signature.Source

/-!
# Indexes

The descriptors of one class or file with their names and signatures, and tables that find them by
signature. Two descriptors of one kind with the same signature cannot be told apart, so they make the
whole container unusable.
-/

namespace Correspondence

/-- A value parameter. -/
structure IndexedParameter where
  name : String
  hasDefault : Bool := false
  /-- Whether the number of arguments varies. -/
  isVararg : Bool := false
deriving DecidableEq, Repr

/-- A function with its signature. -/
structure IndexedFunction where
  name : String
  signature : String
  parameters : List IndexedParameter
  typeParameters : List String
  /-- Whether the receiver comes before the value parameters. -/
  hasReceiver : Bool
  /-- Whether the continuation comes after the value parameters. -/
  isSuspending : Bool
deriving DecidableEq, Repr

namespace IndexedFunction

/-- The number of compiled parameters before the value parameters. -/
def implicitLeading (f : IndexedFunction) : Nat :=
  f.hasReceiver.toNat

/-- The number of compiled parameters after the value parameters. -/
def implicitTrailing (f : IndexedFunction) : Nat :=
  f.isSuspending.toNat

end IndexedFunction

/-- A constructor with its signature, as the host shows it. -/
structure IndexedConstructor where
  signature : String
  isPrimary : Bool
  parameters : List IndexedParameter
deriving DecidableEq, Repr

/-- A property with the signatures of its methods. -/
structure IndexedProperty where
  name : String
  /-- Whether a field is recorded. -/
  hasField : Bool := false
  /-- The recorded name of the field, which should not be there. -/
  fieldName : Option String := none
  getter : Option String := none
  setter : Option String := none
  holder : Option String := none
  hasReceiver : Bool := false
deriving DecidableEq, Repr

/-- The recorded signature of the method with a role. -/
def IndexedProperty.accessor (p : IndexedProperty) : AccessorRole → Option String
  | .field => none
  | .getter => p.getter
  | .setter => p.setter
  | .holder => p.holder

/-- The descriptors of one class or file. -/
structure DescriptorIndex where
  /-- What errors call the class or file. -/
  owner : String
  functions : List IndexedFunction := []
  constructors : List IndexedConstructor := []
  properties : List IndexedProperty := []
  typeParameters : List String := []
  enumEntries : List String := []
  functionPositions : Lookup String Nat := .empty
  constructorPositions : Lookup String Nat := .empty
  accessorPositions : Lookup String (Nat × AccessorRole) := .empty
  enumEntryPositions : Lookup String Nat := .empty

/-- Reads a string of metadata. -/
def StringTable.read (strings : StringTable) (id : StringId) : Except ResolveError String :=
  (strings.get id).mapError .metadata

/-- Reads a string of metadata where there is one. -/
def StringTable.read? (strings : StringTable) :
    Option StringId → Except ResolveError (Option String)
  | none => .ok none
  | some id => (strings.read id).map some

namespace DescriptorIndex

/-- Enters a value under a key that is new to the table. -/
def record {β : Type} (owner : String) (table : Lookup String β) (key : String) (value : β)
    (describe : β → String) : Except ResolveError (Lookup String β) :=
  match table.find? key with
  | none => .ok (table.insert key value)
  | some earlier => .error (.duplicateDescriptor owner key (describe earlier) (describe value))

/-- Value parameters with their names. -/
def parameters (strings : StringTable) (params : List ParameterDescriptor) :
    Except ResolveError (List IndexedParameter) :=
  params.mapM fun p => do
    let name ← strings.read p.name
    return ⟨name, p.declaresDefault, p.varargElement.isSome⟩

/-- The names of type parameters. -/
def typeParameterNames (strings : StringTable) (params : List TypeParameterDescriptor) :
    Except ResolveError (List String) :=
  params.mapM fun p => strings.read p.name

/-- What an error calls the function at a position. -/
def describeFunction (index : DescriptorIndex) (position : Nat) : String :=
  "function `" ++ (index.functions[position]?.map IndexedFunction.name).getD "" ++ "`"

/-- What an error calls the accessor of the property at a position. -/
def describeAccessor (index : DescriptorIndex) : Nat × AccessorRole → String
  | (position, role) =>
    role.inWords ++ " of property `" ++
      (index.properties[position]?.map IndexedProperty.name).getD "" ++ "`"

/-- Adds a function. -/
def addFunction (scope : Scope) (index : DescriptorIndex) (f : FunctionDescriptor) :
    Except ResolveError DescriptorIndex := do
  let signature ← (scope.functionSignature f).mapError .metadata
  let name ← scope.strings.read f.name
  let parameters ← parameters scope.strings f.valueParameters
  let typeParameters ← typeParameterNames scope.strings f.typeParameters
  let position := index.functions.length
  let function : IndexedFunction :=
    { name, signature, parameters, typeParameters, hasReceiver := f.receiver.isSome,
      isSuspending := f.isSuspending }
  let index := { index with functions := index.functions ++ [function] }
  let functionPositions ←
    record index.owner index.functionPositions signature position index.describeFunction
  return { index with functionPositions }

/-- Adds a constructor. -/
def addConstructor (scope : Scope) (isEnum : Bool) (index : DescriptorIndex)
    (c : ConstructorDescriptor) : Except ResolveError DescriptorIndex := do
  let signature ← scope.constructorSignature index.owner c isEnum
  let parameters ← parameters scope.strings c.valueParameters
  let position := index.constructors.length
  let constructor : IndexedConstructor := { signature, isPrimary := c.isPrimary, parameters }
  let constructorPositions ←
    record index.owner index.constructorPositions signature position
      fun position => "constructor #" ++ toString position
  return { index with
    constructors := index.constructors ++ [constructor]
    constructorPositions }

/-- Enters the signature of a method of the property at a position. -/
def addAccessor (position : Nat) (index : DescriptorIndex) :
    Option String × AccessorRole → Except ResolveError DescriptorIndex
  | (none, _) => .ok index
  | (some signature, role) => do
    let accessorPositions ←
      record index.owner index.accessorPositions signature (position, role) index.describeAccessor
    return { index with accessorPositions }

/-- Adds a property. -/
def addProperty (scope : Scope) (index : DescriptorIndex) (p : PropertyDescriptor) :
    Except ResolveError DescriptorIndex := do
  let signatures ← (scope.accessorSignatures p).mapError .metadata
  let fieldName ← scope.strings.read? (p.members.field.bind FieldSignature.name)
  let name ← scope.strings.read p.name
  let position := index.properties.length
  let property : IndexedProperty :=
    { name, hasField := p.members.field.isSome, fieldName, getter := signatures.getter,
      setter := signatures.setter, holder := signatures.holder, hasReceiver := p.receiver.isSome }
  let index := { index with properties := index.properties ++ [property] }
  [(signatures.getter, .getter), (signatures.setter, .setter),
    (signatures.holder, .holder)].foldlM (addAccessor position) index

/-- Adds an enum entry. -/
def addEnumEntry (strings : StringTable) (index : DescriptorIndex) (entry : StringId) :
    Except ResolveError DescriptorIndex := do
  let name ← strings.read entry
  let ordinal := index.enumEntries.length
  let enumEntryPositions ←
    record index.owner index.enumEntryPositions name ordinal
      fun ordinal => "enum entry #" ++ toString ordinal
  return { index with enumEntries := index.enumEntries ++ [name], enumEntryPositions }

/-- The index of a class, which errors call `owner`. -/
def ofClass (owner : String) (metadata : ClassMetadata) : Except ResolveError DescriptorIndex := do
  let c := metadata.descriptor
  let scope := Scope.enter ⟨metadata.strings, []⟩ c.typeParameters
  let index ← c.functions.foldlM (addFunction scope) { owner }
  let index ← c.properties.foldlM (addProperty scope) index
  let index ← c.constructors.foldlM (addConstructor scope (c.kind = .enum)) index
  let typeParameters ← typeParameterNames metadata.strings c.typeParameters
  c.enumEntries.foldlM (addEnumEntry metadata.strings) { index with typeParameters }

/-- The index of a file, which errors call `owner`. -/
def ofPackage (owner : String) (metadata : PackageMetadata) :
    Except ResolveError DescriptorIndex := do
  let scope : Scope := ⟨metadata.strings, []⟩
  let index ← metadata.descriptor.functions.foldlM (addFunction scope) { owner }
  metadata.descriptor.properties.foldlM (addProperty scope) index

/-- The position of the function with a signature. -/
def functionWith? (index : DescriptorIndex) (signature : String) : Option Nat :=
  index.functionPositions.find? signature

/-- The position of the constructor with a signature. -/
def constructorWith? (index : DescriptorIndex) (signature : String) : Option Nat :=
  index.constructorPositions.find? signature

/-- The position of the property of which a method has a signature, and the role of the method. -/
def accessorWith? (index : DescriptorIndex) (signature : String) : Option (Nat × AccessorRole) :=
  index.accessorPositions.find? signature

/-- The position of the enum entry with a name. -/
def enumEntryNamed? (index : DescriptorIndex) (name : String) : Option Nat :=
  index.enumEntryPositions.find? name

/-- Whether a descriptor records the signature of a member of a kind. -/
def reserves (index : DescriptorIndex) (kind : DeclKind) (signature : String) : Bool :=
  match kind with
  | .constructor => (index.constructorWith? signature).isSome
  | .method => (index.functionWith? signature).isSome || (index.accessorWith? signature).isSome
  | _ => false

end DescriptorIndex

end Correspondence
