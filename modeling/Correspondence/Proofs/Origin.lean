import Correspondence.Proofs.Chain
import Correspondence.Proofs.Renumbering
import Correspondence.Resolution

/-!
# Origins

What a declaration stands for, without a cache: a package, a place in the batch of a class or file,
or something that the source compiler made. The batches are those whose first element has number
zero.
-/

namespace Correspondence

/-- Where an element comes from. -/
inductive Origin
  | package (decl : DeclId)
  /-- An element of the batch of a class or file. -/
  | staged (container : DeclId) (place : ElementId)
  /-- A declaration without a descriptor that nothing of the source encloses. -/
  | implicit (decl : DeclId) (kind : ImplicitKind)
  /-- A declaration without a descriptor in what has an origin. -/
  | implicitIn (owner : Origin) (decl : DeclId) (kind : ImplicitKind)
deriving DecidableEq, Repr

theorem Origin.staged_ne_package {container d : DeclId} {place : ElementId} :
    Origin.staged container place ≠ .package d := by
  intro h
  cases h

theorem Origin.implicitIn_ne_package {owner : Origin} {x d : DeclId} {kind : ImplicitKind} :
    Origin.implicitIn owner x kind ≠ .package d := by
  intro h
  cases h

/-- Where the element comes from that the element with an origin refers to by a number. -/
def Origin.target (o : Origin) (place : ElementId) : Origin :=
  match o with
  | .staged container _ => .staged container place
  | .implicitIn owner _ _ => owner
  | o => o

namespace Resolver

/-- How the elements of a class or file are made. -/
def build? (r : Resolver) (decl : DeclId) : Option (BuildM ElementId) :=
  match r.host.metadata decl with
  | some (.ofClass metadata) => some (Building.buildType r.host r.config decl metadata)
  | some (.fileFacade metadata) => some (Building.buildFileFacade r.host r.config decl metadata)
  | _ => none

theorem build?_of_ofClass {r : Resolver} {decl : DeclId} {metadata : ClassMetadata}
    (h : r.host.metadata decl = some (.ofClass metadata)) :
    r.build? decl = some (Building.buildType r.host r.config decl metadata) := by
  simp only [build?, h]

theorem build?_of_fileFacade {r : Resolver} {decl : DeclId} {metadata : PackageMetadata}
    (h : r.host.metadata decl = some (.fileFacade metadata)) :
    r.build? decl = some (Building.buildFileFacade r.host r.config decl metadata) := by
  simp only [build?, h]

/-- The elements of a class or file, where they can be made. -/
def batch? (r : Resolver) (decl : DeclId) : Option Batch :=
  if (r.host.kind decl).isType then
    (r.build? decl).bind fun build => (build { base := 0 }).toOption.map Prod.snd
  else none

/-- The element with an origin, with numbers of its batch. -/
def element? (r : Resolver) : Origin → Option Element
  | .package decl => some (.package { host := decl, name := r.host.simpleName decl })
  | .staged container place => (r.batch? container).bind (·.get? place)
  | .implicit decl kind =>
    some (.implicit { host := decl, kind, name := r.host.simpleName decl, owner := none })
  | .implicitIn _ decl kind =>
    some (.implicit { host := decl, kind, name := r.host.simpleName decl, owner := some ⟨0⟩ })

/-- The batch of an origin. -/
def batchOf? (r : Resolver) : Origin → Option Batch
  | .staged container _ => r.batch? container
  | _ => none

/-- What the batch of an origin has claimed a declaration for. -/
def claimed? (r : Resolver) (decl : DeclId) (owner : Origin) : Option Origin :=
  ((r.batchOf? owner).bind (·.claims.find? decl)).map owner.target

/-- The first of some elements of the batch of an origin with a name. -/
def namedIn? (r : Resolver) (ids : List ElementId) (name : String) (owner : Origin) :
    Option Origin :=
  (ids.find? fun id => (r.element? (owner.target id)).any fun e => e.name = name).map owner.target

/-- A declaration of the source compiler, in what encloses it. -/
def implicitOrigin (decl : DeclId) (kind : ImplicitKind) : Option Origin → Origin
  | some owner => .implicitIn owner decl kind
  | none => .implicit decl kind

section

variable (r : Resolver) (enclosing : DeclId → Except ResolveError (Option Origin)) (decl : DeclId)

/-- The origin of a type that the source compiler made. -/
def implicitTypeOrigin (kind : ImplicitKind) : Except ResolveError (Option Origin) := do
  let owner ← match r.host.enclosing decl with
    | some parent => enclosing parent
    | none => pure none
  return some (implicitOrigin decl kind owner)

/-- The origin of a class or file. -/
def stagedOrigin (build : BuildM ElementId) : Except ResolveError (Option Origin) :=
  (build { base := 0 }).map fun made => some (.staged decl made.1)

/-- The origin of a type. -/
def typeOrigin : Except ResolveError (Option Origin) :=
  match r.host.metadata decl with
  | some (.ofClass metadata) =>
    stagedOrigin decl (Building.buildType r.host r.config decl metadata)
  | some (.fileFacade metadata) =>
    stagedOrigin decl (Building.buildFileFacade r.host r.config decl metadata)
  | some (.multiFileFacade _) | some (.multiFilePart _ _) =>
    throw (.unsupported (r.host.describe decl) .multiFileFacades)
  | some .synthetic =>
    let kind := if isDefaultImpls r.host decl then .defaultImpls else .syntheticClass
    r.implicitTypeOrigin enclosing decl kind
  | none =>
    if isDefaultImpls r.host decl then r.implicitTypeOrigin enclosing decl .defaultImpls
    else throw (.missingDescriptor (r.host.describe decl))

/-- The origin of what belongs to something else: what is claimed in its batch, or else what the
last argument says. -/
def originIn (unclaimed : DeclId → Origin → Except ResolveError (Option Origin)) :
    Except ResolveError (Option Origin) :=
  match r.host.enclosing decl with
  | none => return none
  | some parent => do
    match ← enclosing parent with
    | none => return none
    | some owner =>
      match r.claimed? decl owner with
      | some origin => return some origin
      | none => unclaimed parent owner

/-- The origin of a member that no descriptor corresponds to. -/
def unclaimedMember (_ : DeclId) (owner : Origin) : Except ResolveError (Option Origin) :=
  return some (.implicitIn owner decl (implicitMemberKind (r.element? owner)))

/-- The origin of a parameter that is not matched. -/
def unclaimedParameter (executable : DeclId) (owner : Origin) :
    Except ResolveError (Option Origin) :=
  let element := r.element? owner
  if isImplicitParameter r.host executable decl element then
    return some (.implicitIn owner decl .syntheticParameter)
  else
    let name := r.host.simpleName decl
    match r.namedIn? ((element.bind Element.parameters?).getD []) name owner with
    | some origin => return some origin
    | none =>
      throw (.missingCorrespondence (r.host.describe executable) name (r.host.signature executable))

/-- The origin of a type parameter of what has none by that name. -/
def unnamedTypeParameter (parent : DeclId) (owner : Origin) :
    Except ResolveError (Option Origin) :=
  let element := r.element? owner
  match element.bind Element.typeParameters? with
  | some declared =>
    let position := ((r.host.typeParameters parent).idxOf? decl).getD 0
    let descriptorName :=
      ((declared[position]?.bind fun place => r.element? (owner.target place)).map
        Element.name).getD ""
    throw (.typeParameterMismatch (r.host.describe parent) position (r.host.simpleName decl)
      descriptorName)
  | none =>
    match element with
    | some (.property _) | some (.implicit _) =>
      return some (.implicitIn owner decl .syntheticTypeParameter)
    | _ => throw (.noTypeParameters (r.host.describe parent))

/-- The origin of a type parameter that is not matched. -/
def unclaimedTypeParameter (parent : DeclId) (owner : Origin) :
    Except ResolveError (Option Origin) :=
  let declared := ((r.element? owner).bind Element.typeParameters?).getD []
  match r.namedIn? declared (r.host.simpleName decl) owner with
  | some origin => return some origin
  | none => r.unnamedTypeParameter decl parent owner

/-- The origin of a type parameter. -/
def typeParameterOrigin : Except ResolveError (Option Origin) :=
  match r.host.enclosing decl with
  | none => return none
  | some parent =>
    if !(r.host.kind parent).isType && r.host.kind parent ≠ .method then
      throw (.noTypeParameters (r.host.describe parent))
    else r.originIn enclosing decl (r.unclaimedTypeParameter decl)

/-- The origin of a declaration of the source. -/
def sourceOrigin : Except ResolveError (Option Origin) :=
  match r.host.kind decl with
  | .classType | .interfaceType | .enumType | .annotationType => r.typeOrigin enclosing decl
  | .method | .constructor | .field | .enumConstant | .instanceInit | .staticInit =>
    r.originIn enclosing decl (r.unclaimedMember decl)
  | .parameter => r.originIn enclosing decl (r.unclaimedParameter decl)
  | .typeParameter => r.typeParameterOrigin enclosing decl
  | kind => throw (.unsupportedKind (r.host.describe decl) kind)

/-- The origin of a declaration, given those of the ones that enclose it. -/
def originStep : Except ResolveError (Option Origin) :=
  match r.host.kind decl with
  | .package => return some (.package decl)
  | .moduleDecl => throw (.unsupported (r.host.describe decl) .modules)
  | _ =>
    match r.host.carrier decl with
    | none => return none
    | some _ => r.sourceOrigin enclosing decl

end

/-- The origin of a declaration, with at most `n` enclosing ones. -/
def originWithin (r : Resolver) : Nat → DeclId → Except ResolveError (Option Origin)
  | 0 => fun _ => return none
  | n + 1 => r.originStep (r.originWithin n)

/-- The origin of a declaration; none if it is not part of the source. -/
def origin (r : Resolver) (decl : DeclId) : Except ResolveError (Option Origin) :=
  r.originWithin r.host.chainBound decl

variable {r : Resolver}

private theorem resolveStep_congr (f g : DeclId → ResolveM (Option ElementId)) (d : DeclId)
    (h : ∀ owner, r.host.enclosing d = some owner → f owner = g owner) :
    r.resolveStep f d = r.resolveStep g d := by
  cases howner : r.host.enclosing d with
  | none =>
    simp only [resolveStep, resolveSource, resolveType, resolveImplicitType, resolveMember,
      resolveParameter, resolveTypeParameter, howner]
  | some owner =>
    simp only [resolveStep, resolveSource, resolveType, resolveImplicitType, resolveMember,
      resolveParameter, resolveTypeParameter, howner, h owner howner]

private theorem originStep_congr (f g : DeclId → Except ResolveError (Option Origin)) (d : DeclId)
    (h : ∀ owner, r.host.enclosing d = some owner → f owner = g owner) :
    r.originStep f d = r.originStep g d := by
  cases howner : r.host.enclosing d with
  | none =>
    simp only [originStep, sourceOrigin, typeOrigin, implicitTypeOrigin, originIn,
      typeParameterOrigin, howner]
  | some owner =>
    simp only [originStep, sourceOrigin, typeOrigin, implicitTypeOrigin, originIn,
      typeParameterOrigin, howner, h owner howner]

theorem resolve_eq (linked : r.host.Linked) (acyclic : r.host.Acyclic) (d : DeclId) :
    r.resolve d = r.resolveStep r.resolve d :=
  acyclic.bounded_eq linked (F := r.resolveWithin) (fun _ _ => rfl) resolveStep_congr d

theorem origin_eq (linked : r.host.Linked) (acyclic : r.host.Acyclic) (d : DeclId) :
    r.origin d = r.originStep r.origin d :=
  acyclic.bounded_eq linked (F := r.originWithin) (fun _ _ => rfl) originStep_congr d

end Resolver

end Correspondence
