import Correspondence.Metadata.Flags
import Correspondence.Metadata.TypeRef

/-!
# Descriptors

What the source compiler records of each declaration. Names and signatures are numbers of strings.
-/

namespace Correspondence

/-- Kinds of classes. -/
inductive ClassKind
  | regular
  | interface
  | enum
  /-- One entry of an enum, when it has a body. -/
  | enumEntry
  | annotationType
  | object
  | companion
deriving DecidableEq, Repr, Inhabited

instance : Named ClassKind where
  all := [.regular, .interface, .enum, .enumEntry, .annotationType, .object, .companion]
  name
    | .regular => "Class"
    | .interface => "Interface"
    | .enum => "EnumClass"
    | .enumEntry => "EnumEntry"
    | .annotationType => "AnnotationClass"
    | .object => "Object"
    | .companion => "CompanionObject"

/-- Whether a class of the kind has one instance only. -/
def ClassKind.isObject : ClassKind → Bool
  | .object | .companion => true
  | _ => false

/-- Whether and how a declaration may be overridden or a class extended. -/
inductive Modality
  | final
  | overridable
  | abstract
  | closedHierarchy
deriving DecidableEq, Repr, Inhabited

instance : Named Modality where
  all := [.final, .overridable, .abstract, .closedHierarchy]
  name
    | .final => "Final"
    | .overridable => "Open"
    | .abstract => "Abstract"
    | .closedHierarchy => "Sealed"

/-- Who sees a declaration. -/
inductive Visibility
  /-- The module, in which its compiled name carries the name of the module. -/
  | sameModule
  | owner
  | subtypes
  | everyone
  /-- The one instance that it belongs to. -/
  | receiver
  /-- The block that it stands in. -/
  | block
deriving DecidableEq, Repr, Inhabited

instance : Named Visibility where
  all := [.sameModule, .owner, .subtypes, .everyone, .receiver, .block]
  name
    | .sameModule => "Internal"
    | .owner => "Private"
    | .subtypes => "Protected"
    | .everyone => "Public"
    | .receiver => "PrivateToThis"
    | .block => "Local"

/-- The name and the descriptor of a compiled method. -/
structure MethodSignature where
  name : StringId
  desc : StringId
deriving DecidableEq, Repr

/-- The descriptor of a compiled field. Its name is that of the property, so none is recorded. -/
structure FieldSignature where
  name : Option StringId := none
  desc : StringId
deriving DecidableEq, Repr

/-- The compiled members of a property. -/
structure PropertySignature where
  field : Option FieldSignature := none
  getter : Option MethodSignature := none
  setter : Option MethodSignature := none
  /-- The method without a body that holds the annotations of the property. -/
  holder : Option MethodSignature := none
deriving DecidableEq, Repr

/-- A value parameter. -/
structure ParameterDescriptor where
  name : StringId
  declaresDefault : Bool := false
  /-- The type, which is an array where the number of arguments varies. -/
  type : TypeRef
  /-- The type of one argument where their number varies. -/
  varargElement : Option TypeRef := none

/-- A type parameter. -/
structure TypeParameterDescriptor where
  /-- The number that types refer to. -/
  id : Nat
  name : StringId
  variance : Variance := .invariant
  reified : Bool := false
  upperBounds : List TypeRef := []

/-- A function. -/
structure FunctionDescriptor where
  name : StringId
  modality : Modality := .final
  visibility : Visibility := .everyone
  flags : FunctionFlags := .empty
  typeParameters : List TypeParameterDescriptor := []
  /-- The type that an extension function extends. -/
  receiver : Option TypeRef := none
  valueParameters : List ParameterDescriptor := []
  returnType : TypeRef
  /-- The compiled signature, where it differs from the computed one. -/
  signature : Option MethodSignature := none

/-- Whether a constructor stands in the header of its class. -/
inductive ConstructorKind
  | primary
  | secondary
deriving DecidableEq, Repr, Inhabited

instance : Named ConstructorKind where
  all := [.primary, .secondary]
  name
    | .primary => "Primary"
    | .secondary => "Secondary"

/-- A constructor. -/
structure ConstructorDescriptor where
  kind : ConstructorKind := .primary
  visibility : Visibility := .everyone
  valueParameters : List ParameterDescriptor := []
  /-- The compiled signature, where it differs from the computed one. -/
  signature : Option MethodSignature := none

/-- A property. -/
structure PropertyDescriptor where
  name : StringId
  modality : Modality := .final
  visibility : Visibility := .everyone
  flags : PropertyFlags := .empty
  returnType : TypeRef
  /-- The type that an extension property extends. -/
  receiver : Option TypeRef := none
  members : PropertySignature := {}

/-- A class. -/
structure ClassDescriptor where
  /-- The qualified name: packages end in a slash, enclosing classes in a dot. -/
  qualifiedName : StringId
  kind : ClassKind
  modality : Modality := .final
  visibility : Visibility := .everyone
  flags : ClassFlags := .empty
  companionName : Option StringId := none
  typeParameters : List TypeParameterDescriptor := []
  constructors : List ConstructorDescriptor := []
  functions : List FunctionDescriptor := []
  properties : List PropertyDescriptor := []
  enumEntries : List StringId := []
  moduleName : Option StringId := none

/-- The declarations of a file that stand outside of classes. -/
structure PackageDescriptor where
  functions : List FunctionDescriptor := []
  properties : List PropertyDescriptor := []
  moduleName : Option StringId := none

namespace ParameterDescriptor

/-- The parameter with a default value. -/
def withDefault (p : ParameterDescriptor) : ParameterDescriptor :=
  { p with declaresDefault := true }

end ParameterDescriptor

namespace TypeParameterDescriptor

/-- One more upper bound. -/
def addBound (p : TypeParameterDescriptor) (bound : TypeRef) : TypeParameterDescriptor :=
  { p with upperBounds := p.upperBounds ++ [bound] }

end TypeParameterDescriptor

namespace FunctionDescriptor

/-- Whether the function waits for a continuation. -/
def isSuspending (f : FunctionDescriptor) : Bool :=
  f.flags.contains .suspending

/-- One more value parameter. -/
def addParameter (f : FunctionDescriptor) (p : ParameterDescriptor) : FunctionDescriptor :=
  { f with valueParameters := f.valueParameters ++ [p] }

/-- One more type parameter. -/
def addTypeParameter (f : FunctionDescriptor) (p : TypeParameterDescriptor) : FunctionDescriptor :=
  { f with typeParameters := f.typeParameters ++ [p] }

/-- More modifiers. -/
def addFlags (f : FunctionDescriptor) (flags : FunctionFlags) : FunctionDescriptor :=
  { f with flags := f.flags.union flags }

end FunctionDescriptor

namespace ConstructorDescriptor

/-- Whether the constructor stands in the header of its class. -/
def isPrimary (c : ConstructorDescriptor) : Bool :=
  c.kind = .primary

/-- One more value parameter. -/
def addParameter (c : ConstructorDescriptor) (p : ParameterDescriptor) : ConstructorDescriptor :=
  { c with valueParameters := c.valueParameters ++ [p] }

end ConstructorDescriptor

namespace PropertyDescriptor

/-- More modifiers. -/
def addFlags (p : PropertyDescriptor) (flags : PropertyFlags) : PropertyDescriptor :=
  { p with flags := p.flags.union flags }

/-- The property with a field of the type that `desc` describes. -/
def withField (p : PropertyDescriptor) (desc : StringId) : PropertyDescriptor :=
  { p with members := { p.members with field := some ⟨none, desc⟩ } }

/-- The property with a getter. -/
def withGetter (p : PropertyDescriptor) (signature : MethodSignature) : PropertyDescriptor :=
  { p with members := { p.members with getter := some signature } }

/-- The property with a setter. -/
def withSetter (p : PropertyDescriptor) (signature : MethodSignature) : PropertyDescriptor :=
  { p with members := { p.members with setter := some signature } }

/-- The property with a holder of its annotations. -/
def withHolder (p : PropertyDescriptor) (signature : MethodSignature) : PropertyDescriptor :=
  { p with members := { p.members with holder := some signature } }

end PropertyDescriptor

namespace ClassDescriptor

/-- One more constructor. -/
def addConstructor (c : ClassDescriptor) (d : ConstructorDescriptor) : ClassDescriptor :=
  { c with constructors := c.constructors ++ [d] }

/-- One more function. -/
def addFunction (c : ClassDescriptor) (f : FunctionDescriptor) : ClassDescriptor :=
  { c with functions := c.functions ++ [f] }

/-- One more property. -/
def addProperty (c : ClassDescriptor) (p : PropertyDescriptor) : ClassDescriptor :=
  { c with properties := c.properties ++ [p] }

/-- One more type parameter. -/
def addTypeParameter (c : ClassDescriptor) (p : TypeParameterDescriptor) : ClassDescriptor :=
  { c with typeParameters := c.typeParameters ++ [p] }

/-- One more enum entry. -/
def addEnumEntry (c : ClassDescriptor) (name : StringId) : ClassDescriptor :=
  { c with enumEntries := c.enumEntries ++ [name] }

/-- More modifiers. -/
def addFlags (c : ClassDescriptor) (flags : ClassFlags) : ClassDescriptor :=
  { c with flags := c.flags.union flags }

end ClassDescriptor

namespace PackageDescriptor

/-- One more function. -/
def addFunction (p : PackageDescriptor) (f : FunctionDescriptor) : PackageDescriptor :=
  { p with functions := p.functions ++ [f] }

/-- One more property. -/
def addProperty (p : PackageDescriptor) (d : PropertyDescriptor) : PackageDescriptor :=
  { p with properties := p.properties ++ [d] }

end PackageDescriptor

end Correspondence
