import Correspondence.Fixture.Document
import Correspondence.Fixture.Error
import Correspondence.Metadata.Basic

/-!
# Metadata from fixtures

The names in a fixture become strings of one table, in the order in which they are met. A name of a
type is that of the innermost type parameter in scope, or else of a class.
-/

namespace Correspondence.Fixture

/-- What has been met of one class or file. -/
structure Names where
  strings : StringTable := {}
  /-- The type parameters in scope, the innermost last. -/
  scope : List (String × Nat) := []
  /-- The number of the next type parameter. -/
  nextTypeParameter : Nat := 0

/-- Steps that meet names, or fail. -/
abbrev NamesM := StateT Names (Except Cause)

namespace NamesM

/-- The number of a string. -/
def intern (text : String) : NamesM StringId := fun names =>
  match names.strings.intern text with
  | .ok (id, strings) => .ok (id, { names with strings })
  | .error e => .error (.metadata e)

/-- The number of a string where there is one. -/
def intern? : Option String → NamesM (Option StringId)
  | none => return none
  | some text => some <$> intern text

/-- What a name of a type refers to. -/
def classifier (name : String) : NamesM Classifier := do
  match (← get).scope.reverse.lookup name with
  | some id => return .typeParameter id
  | none => .named <$> intern name

mutual
/-- The type with its names. -/
def ofTypeText : TypeText → NamesM TypeRef
  | .mk name arguments nullable => do
    let classifier ← classifier name
    let arguments ← ofArgumentTexts arguments
    return ⟨classifier, nullable, arguments⟩
/-- The arguments with their names. -/
def ofArgumentTexts : List ArgumentText → NamesM (List Projection)
  | [] => return []
  | .star :: rest => do
    let rest ← ofArgumentTexts rest
    return ⟨.invariant, none⟩ :: rest
  | .type text :: rest => do
    let type ← ofTypeText text
    let rest ← ofArgumentTexts rest
    return ⟨.invariant, some type⟩ :: rest
end

/-- The type that a text stands for. -/
def type (text : String) : NamesM TypeRef :=
  match TypeText.ofText text with
  | .ok written => ofTypeText written
  | .error fault => throw (.typeText text fault)

/-- The type that a text stands for, where there is one. -/
def type? : Option String → NamesM (Option TypeRef)
  | none => return none
  | some text => some <$> type text

/-- A recorded signature, whose name ends before the first parenthesis. -/
def methodSignature (text : String) : NamesM MethodSignature :=
  match Text.cutFirst? '(' text.toList with
  | some (name, rest) => do
    let name ← intern (String.ofList name)
    let desc ← intern (String.ofList ('(' :: rest))
    return { name, desc }
  | none => throw (.methodSignature text)

/-- A recorded signature, where there is one. -/
def methodSignature? : Option String → NamesM (Option MethodSignature)
  | none => return none
  | some text => some <$> methodSignature text

/-- A name, and after a colon the bound of a type parameter, without blanks around them. -/
def splitBound (text : String) : String × Option String :=
  let trimmed (part : List Char) := String.ofList (Text.trim part)
  match Text.cutFirst? ':' text.toList with
  | some (name, bound) => (trimmed name, some (trimmed bound))
  | none => (trimmed text.toList, none)

/-- Brings a type parameter into scope. -/
def declare (text : String) : NamesM (Nat × String × Option String) := fun names =>
  let (name, bound) := splitBound text
  let id := names.nextTypeParameter
  .ok ((id, name, bound),
    { names with scope := names.scope ++ [(name, id)], nextTypeParameter := id + 1 })

/-- A type parameter that is in scope. -/
def typeParameter : Nat × String × Option String → NamesM TypeParameterDescriptor
  | (id, name, bound) => do
    let name ← intern name
    let bound ← type? bound
    return { id, name, upperBounds := bound.toList }

/-- Type parameters, all of which are in scope in all of their bounds. -/
def typeParameters (texts : List String) : NamesM (List TypeParameterDescriptor) := do
  let declared ← texts.mapM declare
  declared.mapM typeParameter

/-- A value parameter. -/
def parameter (spec : ParameterSpec) : NamesM ParameterDescriptor := do
  let name ← intern spec.name
  let type ← type spec.type
  let varargElement ← type? spec.vararg
  return { name, declaresDefault := spec.hasDefault, type, varargElement }

/-- A constructor. -/
def constructor (spec : ConstructorSpec) : NamesM ConstructorDescriptor := do
  let valueParameters ← spec.params.mapM parameter
  let signature ← methodSignature? spec.signature
  return { kind := if spec.isSecondary then .secondary else .primary, valueParameters, signature }

/-- A function, whose type parameters leave the scope with it. -/
def function (spec : FunctionSpec) : NamesM FunctionDescriptor := do
  let outer := (← get).scope
  let typeParameters ← typeParameters spec.typeParams
  let returnType ← type spec.returns
  let name ← intern spec.name
  let receiver ← type? spec.receiver
  let valueParameters ← spec.params.mapM parameter
  let signature ← methodSignature? spec.signature
  modify fun names => { names with scope := outer }
  return {
    name, modality := spec.modality, visibility := spec.visibility
    flags := if spec.isSuspending then .single .suspending else .empty
    typeParameters, receiver, valueParameters, returnType, signature }

/-- The field of a property. A name is recorded only for a field that is there. -/
def field? (desc name : Option String) : NamesM (Option FieldSignature) :=
  match desc with
  | none => return none
  | some desc => do
    let desc ← intern desc
    let name ← intern? name
    return some { name, desc }

/-- A property. -/
def property (spec : PropertySpec) : NamesM PropertyDescriptor := do
  let name ← intern spec.name
  let returnType ← type spec.type
  let receiver ← type? spec.receiver
  let field ← field? spec.field spec.fieldName
  let getter ← methodSignature? spec.getter
  let setter ← methodSignature? spec.setter
  let holder ← methodSignature? spec.holder
  return {
    name, visibility := spec.visibility
    flags := if spec.isMutable then .single .mutable else .empty
    returnType, receiver, members := { field, getter, setter, holder } }

/-- A class. -/
def ofClass (spec : ClassSpec) : NamesM ClassDescriptor := do
  let qualifiedName ← intern spec.name
  let typeParameters ← typeParameters spec.typeParams
  let companionName ← intern? spec.companion
  let moduleName ← intern? spec.moduleName
  let constructors ← spec.constructors.mapM constructor
  let functions ← spec.functions.mapM function
  let properties ← spec.properties.mapM property
  let enumEntries ← spec.enumEntries.mapM intern
  return { qualifiedName, kind := spec.kind, companionName, typeParameters, constructors,
           functions, properties, enumEntries, moduleName }

/-- A file. -/
def ofFacade (spec : FacadeSpec) : NamesM PackageDescriptor := do
  let moduleName ← intern? spec.moduleName
  let functions ← spec.functions.mapM function
  let properties ← spec.properties.mapM property
  return { functions, properties, moduleName }

end NamesM

/-- The metadata of a class. -/
def ClassSpec.metadata (spec : ClassSpec) : Except Cause ClassMetadata := do
  let (descriptor, names) ← (NamesM.ofClass spec).run {}
  return { strings := names.strings, descriptor }

/-- The metadata of a file. -/
def FacadeSpec.metadata (spec : FacadeSpec) : Except Cause PackageMetadata := do
  let (descriptor, names) ← (NamesM.ofFacade spec).run {}
  return { strings := names.strings, descriptor }

/-- The metadata of a compiled type: that of a class before that of a file, and that before the mere
remark that the type stands for several files or for no declaration. -/
def TypeSpec.metadata : TypeSpec → Except Cause (Option Metadata)
  | .mk _ _ _ _ _ _ _ _ _ ofClass facade isSynthetic multiFileParts =>
    match ofClass, facade with
    | some spec, _ => spec.metadata.map fun m => some (.ofClass m)
    | none, some spec => spec.metadata.map fun m => some (.fileFacade m)
    | none, none =>
      if multiFileParts ≠ [] then .ok (some (.multiFileFacade multiFileParts))
      else .ok (if isSynthetic then some .synthetic else none)

end Correspondence.Fixture
