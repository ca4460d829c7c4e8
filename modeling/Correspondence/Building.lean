import Correspondence.Config
import Correspondence.Identity
import Correspondence.Mangling
import Correspondence.Matching
import Correspondence.Property

/-!
# Building elements

The elements of one class or file, made from its metadata in a batch. Every descriptor must
correspond to the members of the compiled type, and every member to one descriptor at most.
-/

namespace Correspondence

/-- Steps that add to a batch, or fail. -/
abbrev BuildM := StateT Batch (Except ResolveError)

/-- The class or file that is being built. -/
structure Container where
  host : Host
  /-- The compiled type. -/
  decl : DeclId
  /-- The element of the class or file. -/
  owner : ElementId
  verifyShapes : Bool

namespace BuildM

/-- Adds an element. -/
def push (e : Element) : BuildM ElementId :=
  fun b => .ok (b.next, b.push e)

/-- Changes an element. -/
def modify (id : ElementId) (change : Element → Element) : BuildM Unit :=
  fun b => .ok ((), b.modify id change)

/-- Claims a compiled declaration for an element. -/
def claim (host : Host) (id : ElementId) (decl : DeclId) : BuildM Unit :=
  fun b => (b.claim host decl id).map ((), ·)

/-- Claims compiled declarations for an element. -/
def claimAll (host : Host) (id : ElementId) (decls : List DeclId) : BuildM Unit :=
  decls.forM (claim host id)

end BuildM

namespace Container

/-- One type parameter with its descriptor. -/
def buildTypeParameter (c : Container) (strings : StringTable) (executable : DeclId)
    (owner : ElementId) :
    (DeclId × TypeParameterDescriptor) × Nat → BuildM ElementId
  | ((param, descriptor), position) => do
    let name ← strings.read descriptor.name
    let hostName := c.host.simpleName param
    if hostName = name then
      let id ← BuildM.push (.typeParameter
        { host := param, owner, name, variance := descriptor.variance,
          reified := descriptor.reified })
      BuildM.claim c.host id param
      return id
    else
      throw (.typeParameterMismatch (c.host.describe executable) position hostName name)

/-- The type parameters of a compiled type or method, with descriptors of the same number and
names. -/
def buildTypeParameters (c : Container) (strings : StringTable) (decl : DeclId)
    (owner : ElementId) (descriptors : List TypeParameterDescriptor) : BuildM (List ElementId) := do
  let params := c.host.typeParameters decl
  if params.length = descriptors.length then
    ((params.zip descriptors).zipIdx).mapM (c.buildTypeParameter strings decl owner)
  else
    let position := min params.length descriptors.length
    let name ← strings.read? (descriptors[position]?.map TypeParameterDescriptor.name)
    let hostName := (params[position]?.map c.host.simpleName).getD ""
    throw (.typeParameterMismatch (c.host.describe decl) position hostName (name.getD ""))

/-- One value parameter. -/
def buildParameter (c : Container) (owner : ElementId) :
    (ParameterMatch × IndexedParameter) × Nat → BuildM ElementId
  | ((found, param), position) => do
    let id ← BuildM.push (.parameter
      { host := found.host, overloadHosts := found.overloads, owner, name := param.name, position,
        hasDefault := param.hasDefault, isVararg := param.isVararg })
    BuildM.claimAll c.host id (found.host :: found.overloads)
    return id

/-- The value parameters of a matched function or constructor. -/
def buildParameters (c : Container) (owner : ElementId) (found : MemberMatch)
    (params : List IndexedParameter) : BuildM (List ElementId) :=
  ((found.parameters.zip params).zipIdx).mapM (c.buildParameter owner)

/-- One constructor, and whether it is primary. A compiled constructor has no type parameters. -/
def buildConstructor (c : Container) (index : DescriptorIndex) :
    IndexedConstructor × ConstructorDescriptor → BuildM (Bool × ElementId)
  | (indexed, descriptor) => do
    let matcher : MemberMatcher :=
      { host := c.host, owner := c.decl, kind := .constructor, index := some index }
    let found ← matcher.find (.ofConstructor indexed)
    if c.host.typeParameters found.host ≠ [] then
      throw (.noTypeParameters (c.host.describe found.host))
    else
      let id ← BuildM.push (.constructor
        { host := found.host, overloads := found.overloads, owner := c.owner,
          kind := descriptor.kind, visibility := descriptor.visibility,
          signature := indexed.signature })
      BuildM.claimAll c.host id found.hosts
      let parameters ← c.buildParameters id found indexed.parameters
      BuildM.modify id fun
        | .constructor e => .constructor { e with parameters }
        | e => e
      return (descriptor.isPrimary, id)

/-- Puts the one primary constructor before the secondary ones, whose order stays. -/
def primaryFirst (owner : String) (constructors : List (Bool × ElementId)) :
    Except ResolveError (List ElementId) :=
  let sorted := constructors.mergeSort fun x y => (!x.1) ≤ !y.1
  match sorted.head? with
  | none => .ok []
  | some (false, _) => .error (.primaryConstructorOrder owner .noPrimary)
  | some (true, _) =>
    if 1 < sorted.countP Prod.fst then
      .error (.primaryConstructorOrder owner .severalPrimaries)
    else
      .ok (sorted.map Prod.snd)

/-- The constructors, of which the primary one comes first. -/
def buildConstructors (c : Container) (index : DescriptorIndex)
    (descriptors : List ConstructorDescriptor) : BuildM (List ElementId) := do
  let constructors ← (index.constructors.zip descriptors).mapM (c.buildConstructor index)
  primaryFirst (c.host.describe c.decl) constructors

/-- One function, which cannot be sealed. -/
def buildFunction (c : Container) (index : DescriptorIndex) (strings : StringTable) :
    IndexedFunction × FunctionDescriptor → BuildM ElementId
  | (indexed, descriptor) => do
    if descriptor.modality = .closedHierarchy then
      throw (.sealedFunction (c.host.describe c.decl) indexed.name)
    else
      let matcher : MemberMatcher :=
        { host := c.host, owner := c.decl, kind := .method, index := some index }
      let found ← matcher.find (.ofFunction indexed)
      let id ← BuildM.push (.function
        { host := found.host, overloads := found.overloads, owner := c.owner, name := indexed.name,
          signature := indexed.signature, modality := descriptor.modality,
          visibility := descriptor.visibility, flags := descriptor.flags,
          isExtension := descriptor.receiver.isSome })
      BuildM.claimAll c.host id found.hosts
      let parameters ← c.buildParameters id found indexed.parameters
      let typeParameters ←
        c.buildTypeParameters strings found.host id descriptor.typeParameters
      BuildM.modify id fun
        | .function e => .function { e with parameters, typeParameters }
        | e => e
      return id

/-- The functions. -/
def buildFunctions (c : Container) (index : DescriptorIndex) (strings : StringTable)
    (descriptors : List FunctionDescriptor) : BuildM (List ElementId) :=
  (index.functions.zip descriptors).mapM (c.buildFunction index strings)

/-- One property. -/
def buildProperty (c : Container) : IndexedProperty × PropertyDescriptor → BuildM ElementId
  | (indexed, descriptor) => do
    let assembler : PropertyAssembler :=
      { host := c.host, owner := c.decl, verifyShapes := c.verifyShapes }
    let found ← assembler.assemble indexed
    let id ← BuildM.push (.property
      { owner := c.owner, name := indexed.name, field := found.field, getter := found.getter,
        setter := found.setter, holder := found.holder, modality := descriptor.modality,
        visibility := descriptor.visibility, flags := descriptor.flags,
        isExtension := descriptor.receiver.isSome })
    BuildM.claimAll c.host id (found.hosts.map Prod.snd)
    return id

/-- The properties. -/
def buildProperties (c : Container) (index : DescriptorIndex)
    (descriptors : List PropertyDescriptor) : BuildM (List ElementId) :=
  (index.properties.zip descriptors).mapM c.buildProperty

/-- Adds a compiled constant to those of the entry that the index finds for its name. -/
def placeConstant (c : Container) (index : DescriptorIndex) (constants : List (List DeclId))
    (id : DeclId) : List (List DeclId) :=
  match index.enumEntryNamed? (c.host.simpleName id) with
  | some ordinal => constants.modify ordinal (· ++ [id])
  | none => constants

/-- The compiled constants of each entry. -/
def enumConstants (c : Container) (index : DescriptorIndex) : List (List DeclId) :=
  (c.host.members c.decl .enumConstant).foldl (c.placeConstant index)
    (List.replicate index.enumEntries.length [])

/-- One enum entry, which corresponds to the one constant with its name. -/
def buildEnumEntry (c : Container) : (String × List DeclId) × Nat → BuildM ElementId
  | ((name, constants), ordinal) =>
    match constants with
    | [host] => do
      let id ← BuildM.push (.enumEntry { host, owner := c.owner, name, ordinal })
      BuildM.claim c.host id host
      return id
    | [] => throw (.missingCorrespondence (c.host.describe c.decl) name name)
    | several =>
      throw (.ambiguousCorrespondence (c.host.describe c.decl) name name
        (several.map c.host.describe))

/-- The enum entries. -/
def buildEnumEntries (c : Container) (index : DescriptorIndex) : BuildM (List ElementId) :=
  ((index.enumEntries.zip (c.enumConstants index)).zipIdx).mapM c.buildEnumEntry

end Container

namespace Building

/-- The mangler of the module that metadata names, or of the default one. -/
def mangler (config : Config) (strings : StringTable) (moduleName : Option StringId) :
    Except ResolveError NameMangler := do
  let name ← strings.read? moduleName
  return .ofModule (name.getD config.defaultModuleName)

/-- The packages in a qualified name, with dots between them. -/
def packageName (qualifiedName : String) : String :=
  match Text.cutLast? '/' qualifiedName.toList with
  | some (package, _) => (String.ofList package).map fun c => if c = '/' then '.' else c
  | none => ""

/-- The class that the metadata of a compiled type describes. -/
def buildType (host : Host) (config : Config) (decl : DeclId) (metadata : ClassMetadata) :
    BuildM ElementId := do
  let d := metadata.descriptor
  let strings := metadata.strings
  let owner := host.describe decl
  let recordedName ← strings.read d.qualifiedName
  let qualifiedName := recordedName.map fun c => if c = '/' then '.' else c
  if config.checkQualifiedNames && qualifiedName ≠ host.qualifiedName decl then
    throw (.qualifiedNameMismatch (host.qualifiedName decl) qualifiedName)
  if (host.enclosed decl).any fun id => (host.kind id).isInitializer then
    throw (.initializerInSourceType owner)
  let index ← DescriptorIndex.ofClass owner metadata
  let mangler ← mangler config strings d.moduleName
  let companionName ← strings.read? d.companionName
  let id ← BuildM.push (.type
    { host := decl, qualifiedName, packageName := packageName recordedName, kind := d.kind,
      modality := d.modality, visibility := d.visibility, flags := d.flags, companionName,
      manglingSuffix := mangler.suffix })
  BuildM.claim host id decl
  let c : Container := { host, decl, owner := id, verifyShapes := config.verifyAccessorShapes }
  let typeParameters ← c.buildTypeParameters strings decl id d.typeParameters
  let constructors ←
    if d.kind = .annotationType then pure [] else c.buildConstructors index d.constructors
  let functions ← c.buildFunctions index strings d.functions
  let properties ← c.buildProperties index d.properties
  let enumEntries ← c.buildEnumEntries index
  BuildM.modify id fun
    | .type e => .type { e with typeParameters, constructors, functions, properties, enumEntries }
    | e => e
  return id

/-- The file that the metadata of a compiled type describes. -/
def buildFileFacade (host : Host) (config : Config) (decl : DeclId) (metadata : PackageMetadata) :
    BuildM ElementId := do
  let d := metadata.descriptor
  let strings := metadata.strings
  let index ← DescriptorIndex.ofPackage (host.describe decl) metadata
  let mangler ← mangler config strings d.moduleName
  let id ← BuildM.push (.fileFacade
    { host := decl, qualifiedName := host.qualifiedName decl, manglingSuffix := mangler.suffix })
  BuildM.claim host id decl
  let c : Container := { host, decl, owner := id, verifyShapes := config.verifyAccessorShapes }
  let functions ← c.buildFunctions index strings d.functions
  let properties ← c.buildProperties index d.properties
  BuildM.modify id fun
    | .fileFacade e => .fileFacade { e with functions, properties }
    | e => e
  return id

end Building

end Correspondence
