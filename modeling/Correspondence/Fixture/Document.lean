import Correspondence.Decl.Kind
import Correspondence.Metadata.Descriptor

/-!
# Fixture documents

A fixture describes compiled types and their metadata by name. Types of the source are written out,
and compiled types are given by their descriptors.
-/

namespace Correspondence.Fixture

/-- A compiled field. -/
structure FieldSpec where
  name : String
  /-- The descriptor of the type. -/
  type : String

/-- A compiled method or constructor. A constructor needs no name. -/
structure ExecutableSpec where
  name : Option String := none
  descriptor : String
  /-- The names of the parameters. -/
  params : List String := []
  typeParams : List String := []

/-- A value parameter of the source. -/
structure ParameterSpec where
  name : String
  type : String
  hasDefault : Bool := false
  /-- The type of one argument where their number varies. -/
  vararg : Option String := none

/-- A constructor of the source. -/
structure ConstructorSpec where
  isSecondary : Bool := false
  params : List ParameterSpec := []
  /-- The recorded signature. -/
  signature : Option String := none

/-- A function of the source. -/
structure FunctionSpec where
  name : String
  returns : String
  params : List ParameterSpec := []
  /-- The type parameters, each a name, or a name and a bound with a colon between them. -/
  typeParams : List String := []
  receiver : Option String := none
  isSuspending : Bool := false
  modality : Modality := .final
  visibility : Visibility := .everyone
  /-- The recorded signature. -/
  signature : Option String := none

/-- A property of the source. -/
structure PropertySpec where
  name : String
  type : String
  isMutable : Bool := false
  visibility : Visibility := .everyone
  receiver : Option String := none
  /-- The descriptor of the field. -/
  field : Option String := none
  /-- The recorded name of the field, which matters only where there is a field. -/
  fieldName : Option String := none
  getter : Option String := none
  setter : Option String := none
  holder : Option String := none

/-- A class of the source. -/
structure ClassSpec where
  name : String
  kind : ClassKind
  companion : Option String := none
  moduleName : Option String := none
  /-- The type parameters, each a name, or a name and a bound with a colon between them. -/
  typeParams : List String := []
  constructors : List ConstructorSpec := []
  functions : List FunctionSpec := []
  properties : List PropertySpec := []
  enumEntries : List String := []

/-- The declarations of a file of the source. -/
structure FacadeSpec where
  moduleName : Option String := none
  functions : List FunctionSpec := []
  properties : List PropertySpec := []

/-- A compiled type: what it is called and contains, and what its metadata says. -/
inductive TypeSpec
  | mk (name : String) (kind : DeclKind) (typeParams : List String) (fields : List FieldSpec)
    (enumConstants : List String) (constructors methods : List ExecutableSpec)
    (initializers : Nat) (types : List TypeSpec) (ofClass : Option ClassSpec)
    (facade : Option FacadeSpec) (isSynthetic : Bool) (multiFileParts : List String)

/-- A package with its types. -/
structure PackageSpec where
  name : String
  types : List TypeSpec := []

/-- A whole document. -/
structure Document where
  packages : List PackageSpec := []

end Correspondence.Fixture
