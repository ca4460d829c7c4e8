import Correspondence.Fixture.Metadata
import Correspondence.Resolution

/-!
# Fixtures

A fixture is the tree that a document describes, in which every declaration has a path.

A package has its name as path, a type follows its package or enclosing type after a dot, and a member
follows its type after `#`: a field or constant by its name, a method or constructor by its signature,
an initializer by its position. A parameter follows after a slash, and a type parameter stands in
angle brackets.
-/

namespace Correspondence

/-- A tree of declarations with a path for each of them, in the order of creation. -/
structure Fixture where
  tree : DeclTree := {}
  paths : List (String × DeclId) := []

namespace Fixture

/-- Steps that load a document, or fail. -/
abbrev LoadM := StateT Fixture (Except Error)

/-- The declaration with a path. -/
def decl? (f : Fixture) (path : String) : Option DeclId :=
  f.paths.lookup path

/-- The declaration with a path, which must be there. -/
def decl (f : Fixture) (path : String) : Except Error DeclId :=
  match f.decl? path with
  | some id => .ok id
  | none => .error { cause := .unknownPath path }

namespace LoadM

/-- Adds a declaration with a path that no other one has. -/
def declare (path : String) (add : DeclTree → DeclTree) : LoadM DeclId := fun f =>
  let id := f.tree.next
  match f.decl? path with
  | some _ => .error { cause := .duplicatePath path }
  | none => .ok (id, { tree := add f.tree, paths := f.paths ++ [(path, id)] })

/-- A step that fails at a place. -/
def located {α : Type} (place : Place) (result : Except Cause α) : LoadM α :=
  match result with
  | .ok a => return a
  | .error cause => throw { place := some place, cause }

/-- Adds type parameters. -/
def addTypeParameters (owner : DeclId) (path : String) (names : List String) : LoadM Unit :=
  names.forM fun name => do
    let _ ← declare (path ++ "<" ++ name ++ ">") (·.addTypeParameter owner name)

/-- Adds a field. -/
def addField (owner : DeclId) (path : String) (spec : FieldSpec) : LoadM Unit := do
  let path := path ++ "#" ++ spec.name
  let type ← located (.field path) ((JvmType.ofDescriptor spec.type).mapError .descriptor)
  let _ ← declare path (·.addField owner spec.name type)

/-- Adds a constant of the enum itself. -/
def addEnumConstant (owner : DeclId) (path name : String) : LoadM Unit := do
  let _ ← declare (path ++ "#" ++ name) (·.add owner .enumConstant name (JvmType.ofName path))

/-- Adds a parameter. -/
def addParameter (owner : DeclId) (path : String) : String × JvmType → LoadM Unit
  | (name, type) => do
    let _ ← declare (path ++ "/" ++ name) (·.addParameter owner name type)

/-- The types of a method or constructor, which has a name for each parameter. -/
def executableTypes (path : String) (spec : ExecutableSpec) :
    LoadM (List JvmType × JvmType) := do
  let (types, result) ← located (.memberOf path)
    ((JvmType.ofMethodDescriptor spec.descriptor).mapError .descriptor)
  if types.length ≠ spec.params.length then
    throw { cause := .parameterNames path spec.descriptor types.length spec.params.length }
  else return (types, result)

/-- Adds the type parameters and parameters of a method or constructor. -/
def addExecutableParts (id : DeclId) (path : String) (spec : ExecutableSpec)
    (types : List JvmType) : LoadM Unit := do
  addTypeParameters id path spec.typeParams
  (spec.params.zip types).forM (addParameter id path)

/-- Adds a constructor. -/
def addConstructor (owner : DeclId) (path : String) (spec : ExecutableSpec) : LoadM Unit := do
  let (types, _) ← executableTypes path spec
  let path := path ++ "#" ++ constructorName ++ spec.descriptor
  let id ← declare path (·.addConstructor owner)
  addExecutableParts id path spec types

/-- Adds a method. -/
def addMethod (owner : DeclId) (path : String) (spec : ExecutableSpec) : LoadM Unit := do
  let (types, result) ← executableTypes path spec
  match spec.name with
  | none => throw { cause := .unnamedMethod path }
  | some name =>
    let path := path ++ "#" ++ name ++ spec.descriptor
    let id ← declare path (·.addMethod owner name result)
    addExecutableParts id path spec types

/-- Adds an initializer block. -/
def addInitializer (owner : DeclId) (path : String) (position : Nat) : LoadM Unit := do
  let _ ← declare (path ++ "#\x7binit\x7d" ++ toString position)
    (·.add owner .instanceInit "" none)

/-- Attaches the metadata of a type. -/
def attachMetadata (id : DeclId) (path : String) (spec : TypeSpec) : LoadM Unit := do
  match ← located (.metadataOf path) spec.metadata with
  | none => return ()
  | some metadata =>
    let f ← get
    let (known, tree) := f.tree.attachMetadata id metadata
    if known then set { f with tree } else throw { cause := .outsideTree path }

/-- The path of a type in a package or type. -/
def typePath (outer name : String) : String :=
  if outer.isEmpty then name else outer ++ "." ++ name

mutual
/-- Adds a type with all that it contains, and its metadata at last. -/
def addType (enclosing : DeclId) (outer : String) : TypeSpec → LoadM Unit
  | .mk name kind typeParams fields enumConstants constructors methods initializers types ofClass
      facade isSynthetic multiFileParts => do
    let path := typePath outer name
    let id ← declare path (·.addType enclosing kind name)
    addTypeParameters id path typeParams
    fields.forM (addField id path)
    enumConstants.forM (addEnumConstant id path)
    constructors.forM (addConstructor id path)
    methods.forM (addMethod id path)
    (List.range initializers).forM (addInitializer id path)
    addTypes id path types
    attachMetadata id path (.mk name kind typeParams fields enumConstants constructors methods
      initializers types ofClass facade isSynthetic multiFileParts)
/-- Adds types, one after the other. -/
def addTypes (enclosing : DeclId) (outer : String) : List TypeSpec → LoadM Unit
  | [] => return ()
  | spec :: rest => do
    addType enclosing outer spec
    addTypes enclosing outer rest
end

/-- Adds a package with its types. -/
def addPackage (spec : PackageSpec) : LoadM Unit := do
  let id ← declare spec.name (·.addPackage spec.name)
  addTypes id spec.name spec.types

end LoadM

/-- The fixture that a document describes. -/
def load (document : Document) : Except Error Fixture := do
  let ((), fixture) ← (document.packages.forM LoadM.addPackage).run {}
  return fixture

/-- Resolves declarations one after the other, and answers those that are part of the source. -/
def resolvePaths (r : Resolver) :
    List (String × DeclId) → EStateM Error Cache (List (DeclId × ElementId))
  | [] => return []
  | (path, decl) :: rest => do
    let found ← EStateM.adaptExcept (fun e => ⟨some (.resolving path), .resolve e⟩) (r.resolve decl)
    let others ← resolvePaths r rest
    return (found.map (decl, ·)).toList ++ others

/-- Resolves all declarations in the order of creation, and answers those that are part of the
source. -/
def resolveAll (f : Fixture) (r : Resolver) : EStateM Error Cache (List (DeclId × ElementId)) :=
  resolvePaths r f.paths

end Fixture

end Correspondence
