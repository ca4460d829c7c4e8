import Correspondence.Decl.Tree

/-!
# Hosts

What is read of the declarations of a compiled unit. A host answers for every number, known or not,
and may leave declarations out of the lists of members although they know where they belong.
-/

namespace Correspondence

/-- The compiled unit as it is read. -/
structure Host where
  /-- The number of declarations, which bounds every chain of enclosing declarations. -/
  size : Nat
  kind : DeclId → DeclKind
  simpleName : DeclId → String
  enclosing : DeclId → Option DeclId
  enclosed : DeclId → List DeclId
  parameters : DeclId → List DeclId
  typeParameters : DeclId → List DeclId
  type : DeclId → Option JvmType
  metadata : DeclId → Option Metadata

/-- The host that reads a tree. -/
def DeclTree.toHost (t : DeclTree) : Host where
  size := t.size
  kind id := ((t.get? id).map Decl.kind).getD .other
  simpleName id := ((t.get? id).map Decl.name).getD ""
  enclosing id := (t.get? id).bind Decl.enclosing
  enclosed id := ((t.get? id).map Decl.enclosed).getD []
  parameters id := ((t.get? id).map Decl.parameters).getD []
  typeParameters id := ((t.get? id).map Decl.typeParameters).getD []
  type id := (t.get? id).bind Decl.type
  metadata id := (t.get? id).bind Decl.metadata

namespace Host

/-- The host with some declarations left out of the lists. -/
def hide (host : Host) (hidden : List DeclId) : Host :=
  { host with
    enclosed := fun id => (host.enclosed id).filter (· ∉ hidden)
    parameters := fun id => (host.parameters id).filter (· ∉ hidden)
    typeParameters := fun id => (host.typeParameters id).filter (· ∉ hidden) }

/-- The declarations in the order of creation. -/
def ids (host : Host) : List DeclId :=
  (List.range host.size).map DeclId.mk

/-- A bound for the number of declarations on a chain of enclosing ones: the known ones, and an
unknown one at the end. -/
def chainBound (host : Host) : Nat :=
  host.size + 1

/-- The members of a declaration that have a kind, in order. -/
def members (host : Host) (owner : DeclId) (kind : DeclKind) : List DeclId :=
  (host.enclosed owner).filter fun id => host.kind id = kind

/-- The dotted name of a type, at most `n` enclosing types deep; of anything else the simple name. -/
def qualifiedNameWithin (host : Host) : Nat → DeclId → String
  | 0, id => host.simpleName id
  | n + 1, id =>
    let name := host.simpleName id
    match host.enclosing id with
    | some parent =>
      if (host.kind id).isType && ((host.kind parent).isType || host.kind parent = .package) then
        let outer := host.qualifiedNameWithin n parent
        if outer.isEmpty then name else outer ++ "." ++ name
      else name
    | none => name

/-- The dotted name of a type; of anything else the simple name. -/
def qualifiedName (host : Host) (id : DeclId) : String :=
  host.qualifiedNameWithin host.chainBound id

/-- The name with the parameter types, for what can be called; the name alone otherwise. -/
def label (host : Host) (id : DeclId) : String :=
  if (host.kind id).isExecutable then
    let types := (host.parameters id).map fun p => ((host.type p).map JvmType.display).getD "?"
    host.simpleName id ++ "(" ++ ", ".intercalate types ++ ")"
  else host.simpleName id

/-- The description of a declaration, at most `n` enclosing ones deep. -/
def describeWithin (host : Host) : Nat → DeclId → String
  | 0, id => host.label id
  | n + 1, id =>
    if (host.kind id).isType || host.kind id = .package then host.qualifiedName id
    else
      let owner := ((host.enclosing id).map (host.describeWithin n)).getD ""
      if owner.isEmpty then host.label id else owner ++ "." ++ host.label id

/-- A description for errors: the dotted name of a type or package, and for members the description
of what encloses them, a dot and their label. -/
def describe (host : Host) (id : DeclId) : String :=
  host.describeWithin host.chainBound id

/-- The nearest declaration with metadata, from `id` outwards, at most `n` steps away. -/
def carrierWithin (host : Host) : Nat → DeclId → Option DeclId
  | 0, _ => none
  | n + 1, id =>
    if (host.metadata id).isSome then some id
    else (host.enclosing id).bind (host.carrierWithin n)

/-- The nearest declaration with metadata, from `id` outwards. -/
def carrier (host : Host) (id : DeclId) : Option DeclId :=
  host.carrierWithin host.chainBound id

end Host

end Correspondence
