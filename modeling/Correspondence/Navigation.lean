import Correspondence.Resolution

/-!
# Navigation among elements

From an element to what encloses it, to what it encloses and to its companion. On the way further
declarations may be resolved.
-/

namespace Correspondence.Resolver

/-- Whether no type and no function of the source encloses the declaration. -/
def isTopLevel (r : Resolver) (decl : DeclId) : Bool :=
  (r.host.enclosing decl).all fun parent =>
    r.host.kind parent = .package || (r.host.metadata parent).any Metadata.isPackageLevel

/-- Whether no type and no function of the source encloses the element. -/
def isTopLevelElement (r : Resolver) (cache : Cache) (id : ElementId) : Bool :=
  match cache.element? id with
  | some (.package _) => true
  | some (.property p) =>
    match cache.element? p.owner with
    | some (.fileFacade _) => true
    | _ => false
  | some e => e.host?.any r.isTopLevel
  | none => false

/-- The element that encloses another one: the recorded owner, or what the enclosing declaration
stands for. -/
def enclosingElement (r : Resolver) (id : ElementId) : ResolveM (Option ElementId) := do
  match (← get).element? id with
  | none => return none
  | some e =>
    match e.owner? with
    | some owner => return some owner
    | none =>
      match e.host?.bind r.host.enclosing with
      | none => return none
      | some parent =>
        match ← r.resolve parent with
        | some owner => return some owner
        | none => throw (.missingDescriptor (r.host.describe parent))

/-- The declaration whose members an element encloses. -/
def memberHost? : Element → Option DeclId
  | .package e => some e.host
  | .type e => some e.host
  | .fileFacade e => some e.host
  | .implicit e => some e.host
  | _ => none

/-- Adds what a declaration stands for to a list that has each element once. -/
def collect (r : Resolver) (found : List ElementId) (decl : DeclId) : ResolveM (List ElementId) := do
  match ← r.resolve decl with
  | some id => return if id ∈ found then found else found ++ [id]
  | none => return found

/-- The elements that an element encloses, in the order of the host and each once: the value
parameters of a function or constructor, or what the members of the compiled declaration stand
for. -/
def enclosedElements (r : Resolver) (id : ElementId) : ResolveM (List ElementId) := do
  match (← get).element? id with
  | none => return []
  | some e =>
    match e.parameters? with
    | some parameters => return parameters
    | none =>
      match memberHost? e with
      | none => return []
      | some host => (r.host.enclosed host).foldlM r.collect []

/-- The nested classes that a companion may be. -/
def companionCandidates (r : Resolver) (host : DeclId) (name : String) : List DeclId :=
  (r.host.members host .classType).filter fun decl => r.host.simpleName decl = name

/-- The companion of a class whose descriptor names one. -/
def resolveCompanion (r : Resolver) (id : ElementId) (host : DeclId) (name : String) :
    ResolveM (Option ElementId) := do
  match r.companionCandidates host name with
  | [candidate] =>
    match (r.host.metadata candidate).bind Metadata.class? with
    | none =>
      throw (.companionWithoutMetadata (r.host.describe host) (r.host.describe candidate))
    | some _ =>
      let companion ← r.resolve candidate
      modify (·.rememberCompanion id companion)
      return companion
  | candidates => throw (.companionNotFound (r.host.describe host) name candidates.length)

/-- The companion of a class, which is resolved when it is first asked for. -/
def companion (r : Resolver) (id : ElementId) : ResolveM (Option ElementId) := do
  let cache ← get
  match cache.companions.find? id with
  | some known => return known
  | none =>
    match (cache.element? id).bind Element.type? with
    | none => return none
    | some type =>
      match type.companionName with
      | none =>
        modify (·.rememberCompanion id none)
        return none
      | some name => r.resolveCompanion id type.host name

end Correspondence.Resolver

namespace Correspondence.Cache

/-- The constructors of a class, of which the primary one comes first. -/
def constructors (cache : Cache) (id : ElementId) : List ElementId :=
  (((cache.element? id).bind Element.type?).map TypeElement.constructors).getD []

/-- Whether an element is a primary constructor. -/
def isPrimaryConstructor (cache : Cache) (id : ElementId) : Bool :=
  ((cache.element? id).bind Element.constructor?).any ConstructorElement.isPrimary

/-- Whether an element is a secondary constructor. -/
def isSecondaryConstructor (cache : Cache) (id : ElementId) : Bool :=
  ((cache.element? id).bind Element.constructor?).any fun c => !c.isPrimary

/-- The primary constructor of a class. -/
def primaryConstructor (cache : Cache) (id : ElementId) : Option ElementId :=
  (cache.constructors id).head?.filter cache.isPrimaryConstructor

/-- The secondary constructors of a class, in the order of their descriptors. -/
def secondaryConstructors (cache : Cache) (id : ElementId) : List ElementId :=
  (cache.constructors id).filter cache.isSecondaryConstructor

/-- The functions of a class or file. -/
def functions (cache : Cache) (id : ElementId) : List ElementId :=
  ((cache.element? id).map Element.functions).getD []

/-- The properties of a class or file. -/
def properties (cache : Cache) (id : ElementId) : List ElementId :=
  ((cache.element? id).map Element.properties).getD []

/-- The type parameters of a class or function. -/
def typeParameters (cache : Cache) (id : ElementId) : List ElementId :=
  ((cache.element? id).bind Element.typeParameters?).getD []

/-- The mangler for the members of a class or file. -/
def mangler? (cache : Cache) (id : ElementId) : Option NameMangler :=
  ((cache.element? id).bind Element.manglingSuffix?).map NameMangler.ofModule

end Correspondence.Cache
