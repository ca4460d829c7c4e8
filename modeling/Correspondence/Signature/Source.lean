import Correspondence.Error
import Correspondence.Metadata.Basic
import Correspondence.Signature.ClassName
import Correspondence.Signature.Host

/-!
# Signatures of descriptors

The signature that a descriptor expects of its compiled member. A recorded signature is taken as it
is; otherwise the source types are erased. A type parameter erases to its first bound, and a chain
of bounds is followed for a limited number of steps.

The compiled constructors of an enum take the name and the ordinal of the entry first. The host does
not show these two parameters, so they are left out here too.
-/

namespace Correspondence

/-- The descriptors of the two parameters that come first in every enum constructor. -/
def enumConstructorStart : String := "Ljava/lang/String;I"

/-- The descriptor of the parameter that comes last in every suspending function. -/
def continuationDescriptor : String := "Lkotlin/coroutines/Continuation;"

/-- How many bounds are followed before any object will do. -/
def maxBounds : Nat := 16

/-- The signature without the two parameters that come first in every enum constructor. -/
def stripEnumConstructorStart (owner signature : String) : Except ResolveError String :=
  match Text.stripStart? (constructorName ++ "(" ++ enumConstructorStart).toList signature.toList with
  | some rest => .ok (constructorName ++ "(" ++ String.ofList rest)
  | none => .error (.enumConstructorStart owner signature)

/-- Where a type stands. -/
inductive TypePosition
  /-- A parameter: a primitive value stays as it is. -/
  | value
  /-- A result: the unit class is no result at all. -/
  | result
  /-- An element of an array or a bound: a primitive value is boxed. -/
  | argument
deriving DecidableEq, Repr

/-- The descriptor of a class by its compiled name. -/
def referenceDescriptor (name : String) : String :=
  "L" ++ name ++ ";"

/-- What the types of a descriptor refer to: strings, and the type parameters in scope. -/
structure Scope where
  strings : StringTable
  /-- The type parameters, the innermost first. -/
  typeParameters : List TypeParameterDescriptor := []

namespace Scope

/-- The scope inside of a declaration with type parameters. Of two with one number the last one
hides the other. -/
def enter (scope : Scope) (params : List TypeParameterDescriptor) : Scope :=
  { scope with typeParameters := params.reverse ++ scope.typeParameters }

/-- The innermost type parameter with a number. -/
def find? (scope : Scope) (id : Nat) : Option TypeParameterDescriptor :=
  scope.typeParameters.find? (·.id = id)

/-- A recorded signature. -/
def recorded (scope : Scope) (signature : MethodSignature) : Except MetadataError String := do
  let name ← scope.strings.get signature.name
  let desc ← scope.strings.get signature.desc
  return name ++ desc

/-- The descriptor of a class other than that of arrays of references. -/
def encodeClass (name : String) (nullable : Bool) (position : TypePosition) : String :=
  match ClassName.primitive? name with
  | some primitive =>
    if position = .argument || nullable then referenceDescriptor primitive.boxed
    else primitive.descriptor
  | none =>
    if name = ClassName.unit && position = .result && !nullable then "V"
    else
      match ClassName.primitiveArrays.lookup name with
      | some element => "[" ++ element
      | none => referenceDescriptor (ClassName.compiled name)

/-- The type of the elements, where it is known. -/
def elementType? (type : TypeRef) : Option TypeRef :=
  type.arguments.head?.bind Projection.type?

theorem sizeOf_elementType? {type element : TypeRef} (h : elementType? type = some element) :
    sizeOf element < sizeOf type := by
  obtain ⟨classifier, nullable, arguments⟩ := type
  cases arguments with
  | nil => simp [elementType?] at h
  | cons p ps =>
    obtain ⟨variance, type?⟩ := p
    simp only [elementType?, List.head?_cons, Option.bind_some] at h
    subst h
    simp only [TypeRef.mk.sizeOf_spec, List.cons.sizeOf_spec, Projection.mk.sizeOf_spec,
      Option.some.sizeOf_spec]
    omega

/-- The descriptor of a type, with at most `bounds` bounds left to follow. -/
def encodeWithin (scope : Scope) (bounds : Nat) (type : TypeRef) (position : TypePosition) :
    Except MetadataError String :=
  match type.classifier with
  | .typeParameter id =>
    match scope.find? id with
    | none => .error (.unknownTypeParameter id)
    | some param =>
      match bounds, param.upperBounds with
      | bounds + 1, bound :: _ => scope.encodeWithin bounds bound .argument
      | _, _ => .ok objectDescriptor
  | .named id =>
    match scope.strings.get id with
    | .error e => .error e
    | .ok name =>
      if name = ClassName.array then
        match h : elementType? type with
        | some element =>
          have : sizeOf element < sizeOf type := sizeOf_elementType? h
          match scope.encodeWithin bounds element .argument with
          | .ok text => .ok ("[" ++ text)
          | .error e => .error e
        | none => .ok ("[" ++ objectDescriptor)
      else .ok (encodeClass name type.nullable position)
termination_by (bounds, sizeOf type)

/-- The descriptor of a type. -/
def encode (scope : Scope) (type : TypeRef) (position : TypePosition) :
    Except MetadataError String :=
  scope.encodeWithin maxBounds type position

/-- The descriptors of value parameters. -/
def encodeParameters (scope : Scope) (params : List ParameterDescriptor) :
    Except MetadataError String := do
  let texts ← params.mapM fun p => scope.encode p.type .value
  return String.join texts

/-- The signature of a function. -/
def functionSignature (scope : Scope) (f : FunctionDescriptor) : Except MetadataError String :=
  match f.signature with
  | some signature => scope.recorded signature
  | none => do
    let inner := scope.enter f.typeParameters
    let name ← scope.strings.get f.name
    let receiver ← match f.receiver with
      | some type => inner.encode type .value
      | none => pure ""
    let params ← inner.encodeParameters f.valueParameters
    if f.isSuspending then
      return name ++ "(" ++ receiver ++ params ++ continuationDescriptor ++ ")" ++ objectDescriptor
    else
      let result ← inner.encode f.returnType .result
      return name ++ "(" ++ receiver ++ params ++ ")" ++ result

/-- The signature of a constructor, as the host shows it. -/
def constructorSignature (scope : Scope) (owner : String) (c : ConstructorDescriptor)
    (isEnum : Bool) : Except ResolveError String := do
  let signature ← match c.signature with
    | some signature => (scope.recorded signature).mapError .metadata
    | none => do
      let params ← (scope.encodeParameters c.valueParameters).mapError .metadata
      let start := if isEnum then enumConstructorStart else ""
      pure (constructorName ++ "(" ++ start ++ params ++ ")V")
  if isEnum then stripEnumConstructorStart owner signature else return signature

/-- A recorded signature, where there is one. -/
def recorded? (scope : Scope) : Option MethodSignature → Except MetadataError (Option String)
  | none => .ok none
  | some signature => (scope.recorded signature).map some

end Scope

/-- The recorded signatures of the methods of a property. -/
structure AccessorSignatures where
  getter : Option String
  setter : Option String
  holder : Option String
deriving DecidableEq, Repr

/-- The recorded signatures of the methods of a property. -/
def Scope.accessorSignatures (scope : Scope) (p : PropertyDescriptor) :
    Except MetadataError AccessorSignatures := do
  let getter ← scope.recorded? p.members.getter
  let setter ← scope.recorded? p.members.setter
  let holder ← scope.recorded? p.members.holder
  return { getter, setter, holder }

end Correspondence
