import Correspondence.Index

/-!
# Matching executables

A function or constructor descriptor corresponds to the one method or constructor with its signature.
For parameters with defaults the compiler may have made further members with fewer parameters. These
siblings have the name of the matched member, some of its parameters, all of those that have no
default, and a signature that no descriptor records.
-/

namespace Correspondence

/-- A parameter of a compiled member. -/
structure HostParameter where
  decl : DeclId
  name : String
  /-- The erased type. -/
  type : Option JvmType
deriving DecidableEq, Repr

/-- Whether two parameters have the same name and the same erased type. -/
def HostParameter.sameAs (p q : HostParameter) : Bool :=
  p.name = q.name && p.type = q.type

/-- A compiled member that a descriptor may correspond to. -/
structure Candidate where
  decl : DeclId
  name : String
  signature : String
  parameters : List HostParameter
deriving DecidableEq, Repr

namespace Host

/-- A parameter with its name and its erased type. -/
def hostParameter (host : Host) (id : DeclId) : HostParameter where
  decl := id
  name := host.simpleName id
  type := (host.type id).map JvmType.erased

/-- A member with its signature and its parameters. -/
def candidate (host : Host) (id : DeclId) : Candidate where
  decl := id
  name := host.simpleName id
  signature := host.signature id
  parameters := (host.parameters id).map host.hostParameter

end Host

/-- What is known of the member that a descriptor corresponds to. -/
structure MatchRequest where
  /-- What errors call the descriptor. -/
  descriptor : String
  signature : String
  parameters : List IndexedParameter := []
  /-- The number of compiled parameters before the value parameters. -/
  implicitLeading : Nat := 0
  /-- The number of compiled parameters after the value parameters. -/
  implicitTrailing : Nat := 0
deriving DecidableEq, Repr

namespace MatchRequest

/-- The request for a function. -/
def ofFunction (f : IndexedFunction) : MatchRequest where
  descriptor := f.name
  signature := f.signature
  parameters := f.parameters
  implicitLeading := f.implicitLeading
  implicitTrailing := f.implicitTrailing

/-- The request for a constructor. -/
def ofConstructor (c : IndexedConstructor) : MatchRequest where
  descriptor := constructorName
  signature := c.signature
  parameters := c.parameters

/-- Whether the compiled parameter at a position needs an argument: it is no value parameter, or one
without a default. -/
def isRequired (request : MatchRequest) (position : Nat) : Bool :=
  position < request.implicitLeading ||
    (request.parameters[position - request.implicitLeading]?).all fun p => !p.hasDefault

end MatchRequest

/-- The compiled parameters that one value parameter corresponds to. -/
structure ParameterMatch where
  /-- The parameter of the matched member. -/
  host : DeclId
  /-- The parameters of the siblings. -/
  overloads : List DeclId := []
deriving DecidableEq, Repr

/-- The compiled members that one descriptor corresponds to. -/
structure MemberMatch where
  /-- The member with the signature of the descriptor. -/
  host : DeclId
  /-- The siblings. -/
  overloads : List DeclId := []
  /-- The compiled parameters of each value parameter. -/
  parameters : List ParameterMatch := []
deriving DecidableEq, Repr

/-- The matched member and its siblings. -/
def MemberMatch.hosts (m : MemberMatch) : List DeclId :=
  m.host :: m.overloads

/-- The members of one kind in one type, and the descriptors that share them. -/
structure MemberMatcher where
  host : Host
  owner : DeclId
  kind : DeclKind
  /-- The descriptors, where siblings must not have the signature of another one. -/
  index : Option DescriptorIndex := none

namespace MemberMatcher

/-- The members that descriptors may correspond to, in the order of the host. -/
def candidates (m : MemberMatcher) : List Candidate :=
  (m.host.members m.owner m.kind).map m.host.candidate

/-- What errors call the type. -/
def ownerName (m : MemberMatcher) : String :=
  m.host.describe m.owner

/-- The one member with the requested signature. -/
def exact (m : MemberMatcher) (request : MatchRequest) : Except ResolveError Candidate :=
  match m.candidates.filter (·.signature = request.signature) with
  | [matched] => .ok matched
  | [] => .error (.missingCorrespondence m.ownerName request.descriptor request.signature)
  | several =>
    .error (.ambiguousCorrespondence m.ownerName request.descriptor request.signature
      (several.map fun c => m.host.describe c.decl))

/-- The first value parameter whose name is not that of its descriptor. -/
def firstMismatch? (params : List HostParameter) (descriptors : List IndexedParameter) :
    Option (Nat × String × String) :=
  ((params.zip descriptors).mapIdx fun position (p, d) => (position, p.name, d.name)).find?
    fun (_, hostName, descriptorName) => hostName ≠ descriptorName

/-- The value parameters of the matched member, which agree with those of the request in number and
in their names. -/
def valueParameters (m : MemberMatcher) (matched : Candidate) (request : MatchRequest) :
    Except ResolveError (List HostParameter) :=
  let implicit := request.implicitLeading + request.implicitTrailing
  let count := matched.parameters.length
  let describe := m.host.describe matched.decl
  let params := (matched.parameters.drop request.implicitLeading).take (count - implicit)
  if count < implicit || count - implicit ≠ request.parameters.length then
    .error (.parameterCountMismatch describe request.descriptor (count - implicit)
      request.parameters.length)
  else
    match firstMismatch? params request.parameters with
    | some (position, hostName, descriptorName) =>
      .error (.parameterMismatch describe request.descriptor position hostName descriptorName)
    | none => .ok params

/-- The parameters of the matched member that every sibling has too. -/
def required (matched : Candidate) (request : MatchRequest) : List HostParameter :=
  ((matched.parameters.mapIdx fun position p => (position, p)).filter
    fun (position, _) => request.isRequired position).map Prod.snd

/-- Whether a member is a sibling of the matched one. -/
def isSibling (m : MemberMatcher) (matched : Candidate) (required : List HostParameter)
    (c : Candidate) : Bool :=
  c.decl ≠ matched.decl && c.name = matched.name && c.signature ≠ matched.signature &&
    !m.index.any (·.reserves m.kind c.signature) &&
    c.parameters.all (fun p => matched.parameters.any (·.sameAs p)) &&
    required.all fun needed => c.parameters.any (·.sameAs needed)

/-- The parameters of the siblings that have the name and the type of the value parameter at a
position, and not already those of an earlier one. -/
def siblingParameters (values : List HostParameter) (siblings : List Candidate) (position : Nat) :
    List DeclId :=
  (siblings.flatMap Candidate.parameters).filterMap fun p =>
    if values.findIdx? (·.sameAs p) = some position then some p.decl else none

/-- The compiled members that a descriptor corresponds to. -/
def find (m : MemberMatcher) (request : MatchRequest) : Except ResolveError MemberMatch := do
  let matched ← m.exact request
  let values ← m.valueParameters matched request
  let siblings := m.candidates.filter (m.isSibling matched (required matched request))
  return {
    host := matched.decl
    overloads := siblings.map Candidate.decl
    parameters := values.mapIdx fun position p =>
      ⟨p.decl, siblingParameters values siblings position⟩ }

end MemberMatcher

end Correspondence
