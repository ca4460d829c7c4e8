import Correspondence.Index

/-!
# Assembling properties

A property corresponds to no single declaration of the host. It consists of a field, a getter, a
setter and a method that holds its annotations, and at least one of the first three is there.
-/

namespace Correspondence

/-- The compiled members of a property. -/
structure PropertyMatch where
  field : Option DeclId := none
  getter : Option DeclId := none
  setter : Option DeclId := none
  holder : Option DeclId := none
deriving DecidableEq, Repr

namespace PropertyMatch

/-- The member with a role. -/
def get? (m : PropertyMatch) : AccessorRole → Option DeclId
  | .field => m.field
  | .getter => m.getter
  | .setter => m.setter
  | .holder => m.holder

/-- The members with their roles. -/
def hosts (m : PropertyMatch) : List (AccessorRole × DeclId) :=
  (Named.all : List AccessorRole).filterMap fun role => (m.get? role).map (role, ·)

/-- Whether the property has no member that makes it one. Annotations alone do not. -/
def isEmpty (m : PropertyMatch) : Bool :=
  m.field.isNone && m.getter.isNone && m.setter.isNone

end PropertyMatch

/-- The fields and methods of one type. -/
structure PropertyAssembler where
  host : Host
  owner : DeclId
  /-- Whether methods must have the form of their role. -/
  verifyShapes : Bool

namespace PropertyAssembler

/-- What errors call the type. -/
def ownerName (a : PropertyAssembler) : String :=
  a.host.describe a.owner

/-- The only declaration among those found, if any was found. -/
def unique (a : PropertyAssembler) (descriptor : String) :
    List DeclId → Except ResolveError (Option DeclId)
  | [] => .ok none
  | [found] => .ok (some found)
  | several =>
    .error (.ambiguousCorrespondence a.ownerName descriptor descriptor
      (several.map a.host.describe))

/-- The field with the name of the property. -/
def field (a : PropertyAssembler) (p : IndexedProperty) : Except ResolveError (Option DeclId) :=
  a.unique p.name ((a.host.members a.owner .field).filter fun id => a.host.simpleName id = p.name)

/-- The method with the signature that is recorded for a role. -/
def accessor (a : PropertyAssembler) (p : IndexedProperty) (role : AccessorRole) :
    Except ResolveError (Option DeclId) :=
  match p.accessor role with
  | none => .ok none
  | some signature => do
    let found ← a.unique signature
      ((a.host.members a.owner .method).filter fun id => a.host.signature id = signature)
    match found with
    | none => return none
    | some method =>
      if a.verifyShapes && (AccessorShape.of a.host method).role? p.hasReceiver ≠ some role then
        .error (.accessorShapeMismatch (a.host.describe method) p.name role)
      else return some method

/-- The compiled members of a property. -/
def assemble (a : PropertyAssembler) (p : IndexedProperty) : Except ResolveError PropertyMatch :=
  match p.fieldName with
  | some name => .error (.namedFieldSignature a.ownerName p.name name)
  | none => do
    let field ← a.field p
    let getter ← a.accessor p .getter
    let setter ← a.accessor p .setter
    let holder ← a.accessor p .holder
    let found : PropertyMatch := { field, getter, setter, holder }
    if found.isEmpty then .error (.emptyProperty a.ownerName p.name) else return found

end PropertyAssembler

end Correspondence
