import Correspondence.Decl.Tree
import Correspondence.Signature.Host

/-!
# Elements

What the source program declares, each declaration with the compiled declarations that it
corresponds to. Elements refer to each other by number.
-/

namespace Correspondence

/-- An element by its position in the order of creation. -/
structure ElementId where
  index : Nat
deriving DecidableEq, Repr, Inhabited

/-- A package. -/
structure PackageElement where
  host : DeclId
  name : String
deriving DecidableEq, Repr

/-- A class, with its members in the order of their descriptors. -/
structure TypeElement where
  host : DeclId
  qualifiedName : String
  packageName : String
  kind : ClassKind
  modality : Modality
  visibility : Visibility
  flags : ClassFlags
  companionName : Option String
  /-- What the compiled names of members that only the module sees end in. -/
  manglingSuffix : String
  /-- The constructors, of which the primary one comes first. -/
  constructors : List ElementId := []
  functions : List ElementId := []
  properties : List ElementId := []
  typeParameters : List ElementId := []
  enumEntries : List ElementId := []
deriving DecidableEq, Repr

namespace TypeElement

/-- Whether the class has one instance only. -/
def isObject (t : TypeElement) : Bool := t.kind.isObject

/-- Whether the class is the companion of another one. -/
def isCompanion (t : TypeElement) : Bool := t.kind = .companion

def isInner (t : TypeElement) : Bool := t.flags.contains .inner

def isData (t : TypeElement) : Bool := t.flags.contains .data

def isExpect (t : TypeElement) : Bool := t.flags.contains .expect

def isExternal (t : TypeElement) : Bool := t.flags.contains .external

end TypeElement

/-- The compiled type that holds the declarations of one file. -/
structure FileFacadeElement where
  host : DeclId
  qualifiedName : String
  /-- What the compiled names of members that only the module sees end in. -/
  manglingSuffix : String
  functions : List ElementId := []
  properties : List ElementId := []
deriving DecidableEq, Repr

/-- A function. -/
structure FunctionElement where
  host : DeclId
  /-- The siblings with fewer parameters. -/
  overloads : List DeclId
  owner : ElementId
  name : String
  signature : String
  modality : Modality
  visibility : Visibility
  flags : FunctionFlags
  isExtension : Bool
  parameters : List ElementId := []
  typeParameters : List ElementId := []
deriving DecidableEq, Repr

namespace FunctionElement

def isSuspend (f : FunctionElement) : Bool := f.flags.contains .suspending

def isInline (f : FunctionElement) : Bool := f.flags.contains .inlined

def isOperator (f : FunctionElement) : Bool := f.flags.contains .operator

def isInfix (f : FunctionElement) : Bool := f.flags.contains .infixed

def isTailrec (f : FunctionElement) : Bool := f.flags.contains .tailRecursive

def isExpect (f : FunctionElement) : Bool := f.flags.contains .expect

def isExternal (f : FunctionElement) : Bool := f.flags.contains .external

def isAbstract (f : FunctionElement) : Bool := f.modality = .abstract

/-- The number of compiled parameters before the value parameters. -/
def implicitLeading (f : FunctionElement) : Nat := f.isExtension.toNat

/-- The number of compiled parameters after the value parameters. -/
def implicitTrailing (f : FunctionElement) : Nat := f.isSuspend.toNat

end FunctionElement

/-- A constructor. -/
structure ConstructorElement where
  host : DeclId
  /-- The siblings with fewer parameters. -/
  overloads : List DeclId
  owner : ElementId
  kind : ConstructorKind
  visibility : Visibility
  signature : String
  parameters : List ElementId := []
deriving DecidableEq, Repr

/-- Whether the constructor stands in the header of its class. -/
def ConstructorElement.isPrimary (c : ConstructorElement) : Bool := c.kind = .primary

/-- A property. -/
structure PropertyElement where
  owner : ElementId
  name : String
  field : Option DeclId
  getter : Option DeclId
  setter : Option DeclId
  /-- The method that holds the annotations. -/
  holder : Option DeclId
  modality : Modality
  visibility : Visibility
  flags : PropertyFlags
  isExtension : Bool
deriving DecidableEq, Repr

namespace PropertyElement

def isMutable (p : PropertyElement) : Bool := p.flags.contains .mutable

def isConst (p : PropertyElement) : Bool := p.flags.contains .constant

def isLateinit (p : PropertyElement) : Bool := p.flags.contains .lateInit

/-- The compiled members, in the order field, getter, setter, holder. -/
def hosts (p : PropertyElement) : List DeclId :=
  [p.field, p.getter, p.setter, p.holder].filterMap id

end PropertyElement

/-- A value parameter. -/
structure ParameterElement where
  host : DeclId
  /-- The parameters of the siblings. -/
  overloadHosts : List DeclId
  owner : ElementId
  name : String
  /-- The position among the value parameters. -/
  position : Nat
  hasDefault : Bool
  isVararg : Bool
deriving DecidableEq, Repr

/-- A type parameter. -/
structure TypeParameterElement where
  host : DeclId
  owner : ElementId
  name : String
  variance : Variance
  reified : Bool
deriving DecidableEq, Repr

/-- An entry of an enum. -/
structure EnumEntryElement where
  host : DeclId
  owner : ElementId
  name : String
  /-- The position among the entries. -/
  ordinal : Nat
deriving DecidableEq, Repr

/-- Why a compiled declaration has no descriptor. -/
inductive ImplicitKind
  /-- The type holds the bodies of the methods of an interface. -/
  | defaultImpls
  | defaultImplsMember
  /-- The source compiler made the type. -/
  | syntheticClass
  | syntheticMember
  /-- A receiver, a continuation, or a parameter of an accessor. -/
  | syntheticParameter
  | syntheticTypeParameter
deriving DecidableEq, Repr

instance : Named ImplicitKind where
  all := [.defaultImpls, .defaultImplsMember, .syntheticClass, .syntheticMember,
    .syntheticParameter, .syntheticTypeParameter]
  name
    | .defaultImpls => "DefaultImpls"
    | .defaultImplsMember => "DefaultImplsMember"
    | .syntheticClass => "SyntheticClass"
    | .syntheticMember => "SyntheticMember"
    | .syntheticParameter => "SyntheticParameter"
    | .syntheticTypeParameter => "SyntheticTypeParameter"

/-- A compiled declaration that the source compiler made. -/
structure ImplicitElement where
  host : DeclId
  kind : ImplicitKind
  name : String
  owner : Option ElementId
deriving DecidableEq, Repr

/-- What compiled declarations are resolved to. -/
inductive Element
  | package (element : PackageElement)
  | type (element : TypeElement)
  | fileFacade (element : FileFacadeElement)
  | function (element : FunctionElement)
  | constructor (element : ConstructorElement)
  | property (element : PropertyElement)
  | parameter (element : ParameterElement)
  | typeParameter (element : TypeParameterElement)
  | enumEntry (element : EnumEntryElement)
  | implicit (element : ImplicitElement)
deriving DecidableEq, Repr

namespace Element

/-- What errors call elements of the kind. -/
def kindName : Element → String
  | .package _ => "package"
  | .type _ => "type"
  | .fileFacade _ => "file facade"
  | .function _ => "function"
  | .constructor _ => "constructor"
  | .property _ => "property"
  | .parameter _ => "parameter"
  | .typeParameter _ => "type parameter"
  | .enumEntry _ => "enum entry"
  | .implicit _ => "implicit declaration"

/-- The name in the source: qualified for types, simple for anything else. -/
def name : Element → String
  | .package e => e.name
  | .type e => e.qualifiedName
  | .fileFacade e => e.qualifiedName
  | .function e => e.name
  | .constructor _ => constructorName
  | .property e => e.name
  | .parameter e => e.name
  | .typeParameter e => e.name
  | .enumEntry e => e.name
  | .implicit e => e.name

/-- What errors call the element. -/
def describe (e : Element) : String :=
  e.kindName ++ " `" ++ e.name ++ "`"

/-- All compiled declarations that the element stands for, the foremost one first. -/
def hostForms : Element → List DeclId
  | .package e => [e.host]
  | .type e => [e.host]
  | .fileFacade e => [e.host]
  | .function e => e.host :: e.overloads
  | .constructor e => e.host :: e.overloads
  | .property e => e.hosts
  | .parameter e => e.host :: e.overloadHosts
  | .typeParameter e => [e.host]
  | .enumEntry e => [e.host]
  | .implicit e => [e.host]

/-- The foremost compiled declaration. -/
def host? (e : Element) : Option DeclId :=
  e.hostForms.head?

/-- The element that this one belongs to, where that is recorded. Types and packages do not record
it. -/
def owner? : Element → Option ElementId
  | .package _ | .type _ | .fileFacade _ => none
  | .function e => some e.owner
  | .constructor e => some e.owner
  | .property e => some e.owner
  | .parameter e => some e.owner
  | .typeParameter e => some e.owner
  | .enumEntry e => some e.owner
  | .implicit e => e.owner

/-- The type parameters of an element that can have some. -/
def typeParameters? : Element → Option (List ElementId)
  | .type e => some e.typeParameters
  | .function e => some e.typeParameters
  | _ => none

/-- The value parameters of an element that can have some. -/
def parameters? : Element → Option (List ElementId)
  | .function e => some e.parameters
  | .constructor e => some e.parameters
  | _ => none

def type? : Element → Option TypeElement
  | .type e => some e
  | _ => none

def constructor? : Element → Option ConstructorElement
  | .constructor e => some e
  | _ => none

/-- The functions of a class or file, none of anything else. -/
def functions : Element → List ElementId
  | .type e => e.functions
  | .fileFacade e => e.functions
  | _ => []

/-- The properties of a class or file, none of anything else. -/
def properties : Element → List ElementId
  | .type e => e.properties
  | .fileFacade e => e.properties
  | _ => []

/-- What the compiled names of members that only the module sees end in, for a class or file. -/
def manglingSuffix? : Element → Option String
  | .type e => some e.manglingSuffix
  | .fileFacade e => some e.manglingSuffix
  | _ => none

end Element

end Correspondence
