import Correspondence.Building

/-!
# Resolution

A compiled declaration is resolved to the element that it stands for. A type is resolved as a whole,
together with its members; a member, a parameter or a type parameter is resolved by resolving what
encloses it and then looking at what that has claimed. What nothing has claimed was made by the source
compiler. A declaration without metadata on the way outwards is not part of the source.
-/

namespace Correspondence

/-- What a resolver reads. -/
structure Resolver where
  host : Host
  config : Config := {}

/-- Steps of a resolver. What they have found out stays, also where they fail. -/
abbrev ResolveM := EStateM ResolveError Cache

/-- The name of the type that holds the bodies of the methods of an interface. -/
def defaultImplsName : String := "DefaultImpls"

namespace Resolver

/-- The nearest declaration with metadata, at most `n` steps outwards. What has been looked for once
is not looked for again. -/
def carrierWithin (host : Host) : Nat → DeclId → Cache → Option DeclId × Cache
  | 0, _, cache => (none, cache)
  | n + 1, id, cache =>
    match cache.carriers.find? id with
    | some known => (known, cache)
    | none =>
      let (carrier, cache) :=
        if (host.metadata id).isSome then (some id, cache)
        else match host.enclosing id with
          | some parent => carrierWithin host n parent cache
          | none => (none, cache)
      (carrier, cache.rememberCarrier id carrier)

/-- The nearest declaration with metadata, from `id` outwards. -/
def metadataCarrier (r : Resolver) (id : DeclId) : ResolveM (Option DeclId) :=
  modifyGet (carrierWithin r.host r.host.chainBound id)

/-- Whether the declaration is part of the source. -/
def isSourceDeclaration (r : Resolver) (id : DeclId) : ResolveM Bool := do
  return (← r.metadataCarrier id).isSome

/-- Adds an element that a declaration stands for. -/
def insert (decl : DeclId) (e : Element) : ResolveM ElementId :=
  modifyGet fun cache => (cache.next, cache.insert decl e)

/-- Adds the element of a declaration that the source compiler made. -/
def insertImplicit (r : Resolver) (decl : DeclId) (kind : ImplicitKind) (owner : Option ElementId) :
    ResolveM ElementId :=
  insert decl (.implicit { host := decl, kind, name := r.host.simpleName decl, owner })

/-- Adds the elements of a batch, or none where making them fails. -/
def commit (build : BuildM ElementId) : ResolveM ElementId := do
  match build (← get).begin with
  | .ok (id, batch) => modifyGet fun cache => (id, cache.commit batch)
  | .error e => throw e

/-- The first of some elements with a name. -/
def named? (cache : Cache) (ids : List ElementId) (name : String) : Option ElementId :=
  ids.find? fun id => (cache.element? id).any fun e => e.name = name

/-- Whether the type holds the bodies of the methods of the interface around it. -/
def isDefaultImpls (host : Host) (decl : DeclId) : Bool :=
  host.simpleName decl = defaultImplsName &&
    (host.enclosing decl).any fun parent =>
      host.kind parent = .interfaceType &&
        ((host.metadata parent).bind Metadata.class?).any fun m => m.descriptor.kind = .interface

/-- A type that the source compiler made. It belongs to what encloses it. -/
def resolveImplicitType (r : Resolver) (enclosing : DeclId → ResolveM (Option ElementId))
    (decl : DeclId) (kind : ImplicitKind) : ResolveM (Option ElementId) := do
  let owner ← match r.host.enclosing decl with
    | some parent => enclosing parent
    | none => pure none
  match (← get).get? decl with
  | some id => return some id
  | none => return some (← r.insertImplicit decl kind owner)

/-- A type, by its metadata. -/
def resolveType (r : Resolver) (enclosing : DeclId → ResolveM (Option ElementId)) (decl : DeclId) :
    ResolveM (Option ElementId) :=
  match r.host.metadata decl with
  | some (.ofClass metadata) => some <$> commit (Building.buildType r.host r.config decl metadata)
  | some (.fileFacade metadata) =>
    some <$> commit (Building.buildFileFacade r.host r.config decl metadata)
  | some (.multiFileFacade _) | some (.multiFilePart _ _) =>
    throw (.unsupported (r.host.describe decl) .multiFileFacades)
  | some .synthetic =>
    let kind := if isDefaultImpls r.host decl then .defaultImpls else .syntheticClass
    r.resolveImplicitType enclosing decl kind
  | none =>
    if isDefaultImpls r.host decl then r.resolveImplicitType enclosing decl .defaultImpls
    else throw (.missingDescriptor (r.host.describe decl))

/-- What a member that nothing has claimed is, in the element that it belongs to. -/
def implicitMemberKind : Option Element → ImplicitKind
  | some (.implicit { kind := .defaultImpls, .. }) => .defaultImplsMember
  | _ => .syntheticMember

/-- A member of a type, once the type is resolved. -/
def resolveMember (r : Resolver) (enclosing : DeclId → ResolveM (Option ElementId))
    (decl : DeclId) : ResolveM (Option ElementId) := do
  match r.host.enclosing decl with
  | none => return none
  | some parent =>
    match ← enclosing parent with
    | none => return none
    | some owner =>
      let cache ← get
      match cache.get? decl with
      | some id => return some id
      | none =>
        let kind := implicitMemberKind (cache.element? owner)
        return some (← r.insertImplicit decl kind (some owner))

/-- Whether a parameter of a compiled member is no value parameter of the element that the member
stands for. -/
def isImplicitParameter (host : Host) (executable decl : DeclId) : Option Element → Bool
  | some (.function f) =>
    let params := host.parameters executable
    (params.idxOf? decl).any fun position =>
      position < f.implicitLeading || params.length - f.implicitTrailing ≤ position
  | some (.constructor _) => false
  | _ => true

/-- A parameter, once the method or constructor is resolved. -/
def resolveParameter (r : Resolver) (enclosing : DeclId → ResolveM (Option ElementId))
    (decl : DeclId) : ResolveM (Option ElementId) := do
  match r.host.enclosing decl with
  | none => return none
  | some executable =>
    match ← enclosing executable with
    | none => return none
    | some owner =>
      let cache ← get
      match cache.get? decl with
      | some id => return some id
      | none =>
        let element := cache.element? owner
        if isImplicitParameter r.host executable decl element then
          return some (← r.insertImplicit decl .syntheticParameter (some owner))
        else
          let name := r.host.simpleName decl
          match named? cache ((element.bind Element.parameters?).getD []) name with
          | some id =>
            modify (·.identify decl id)
            return some id
          | none =>
            throw (.missingCorrespondence (r.host.describe executable) name
              (r.host.signature executable))

/-- A type parameter of what has none by that name: an error if type parameters are declared, or
cannot be; otherwise one that the source compiler made. -/
def resolveUnnamedTypeParameter (r : Resolver) (parent decl : DeclId) (owner : ElementId)
    (element : Option Element) : ResolveM (Option ElementId) := do
  match element.bind Element.typeParameters? with
  | some declared =>
    let position := ((r.host.typeParameters parent).idxOf? decl).getD 0
    let descriptorName := ((declared[position]?.bind (← get).element?).map Element.name).getD ""
    throw (.typeParameterMismatch (r.host.describe parent) position (r.host.simpleName decl)
      descriptorName)
  | none =>
    match element with
    | some (.property _) | some (.implicit _) =>
      return some (← r.insertImplicit decl .syntheticTypeParameter (some owner))
    | _ => throw (.noTypeParameters (r.host.describe parent))

/-- A type parameter, once the type or method is resolved. -/
def resolveTypeParameter (r : Resolver) (enclosing : DeclId → ResolveM (Option ElementId))
    (decl : DeclId) : ResolveM (Option ElementId) := do
  match r.host.enclosing decl with
  | none => return none
  | some parent =>
    if !(r.host.kind parent).isType && r.host.kind parent ≠ .method then
      throw (.noTypeParameters (r.host.describe parent))
    else
      match ← enclosing parent with
      | none => return none
      | some owner =>
        let cache ← get
        match cache.get? decl with
        | some id => return some id
        | none =>
          let element := cache.element? owner
          let declared := (element.bind Element.typeParameters?).getD []
          match named? cache declared (r.host.simpleName decl) with
          | some id =>
            modify (·.identify decl id)
            return some id
          | none => r.resolveUnnamedTypeParameter parent decl owner element

/-- A declaration of the source that is neither a package nor a module, by its kind. -/
def resolveSource (r : Resolver) (enclosing : DeclId → ResolveM (Option ElementId))
    (decl : DeclId) : ResolveM (Option ElementId) :=
  match r.host.kind decl with
  | .classType | .interfaceType | .enumType | .annotationType => r.resolveType enclosing decl
  | .method | .constructor | .field | .enumConstant | .instanceInit | .staticInit =>
    r.resolveMember enclosing decl
  | .parameter => r.resolveParameter enclosing decl
  | .typeParameter => r.resolveTypeParameter enclosing decl
  | kind => throw (.unsupportedKind (r.host.describe decl) kind)

/-- A declaration, given how to resolve the one that encloses it. -/
def resolveStep (r : Resolver) (enclosing : DeclId → ResolveM (Option ElementId))
    (decl : DeclId) : ResolveM (Option ElementId) := do
  match (← get).get? decl with
  | some id => return some id
  | none =>
    match r.host.kind decl with
    | .package =>
      return some (← insert decl (.package { host := decl, name := r.host.simpleName decl }))
    | .moduleDecl => throw (.unsupported (r.host.describe decl) .modules)
    | _ =>
      match ← r.metadataCarrier decl with
      | none => return none
      | some _ => r.resolveSource enclosing decl

/-- A declaration, with at most `n` enclosing ones. -/
def resolveWithin (r : Resolver) : Nat → DeclId → ResolveM (Option ElementId)
  | 0 => fun _ => return none
  | n + 1 => r.resolveStep (r.resolveWithin n)

/-- The element that a declaration stands for; none if it is not part of the source. -/
def resolve (r : Resolver) (decl : DeclId) : ResolveM (Option ElementId) :=
  r.resolveWithin r.host.chainBound decl

end Resolver

end Correspondence
