import Correspondence.Proofs.Indexing
import Correspondence.Proofs.Matching

/-!
# Outcomes of the search

Which members have the requested signature, how many compiled parameters the one among them has and
how these are called decides what the search for a member comes to: exactly one of four errors, or a
match.
-/

namespace Correspondence

namespace MatchRequest

/-- The number of compiled parameters that a request expects. -/
def count (request : MatchRequest) : Nat :=
  request.implicitLeading + request.parameters.length + request.implicitTrailing

/-- The name of a value parameter. -/
def name? (request : MatchRequest) (i : Nat) : Option String :=
  (request.parameters[i]?).map IndexedParameter.name

end MatchRequest

namespace MemberMatcher

/-- The members with a signature, in the order of the host. -/
def withSignature (m : MemberMatcher) (signature : String) : List DeclId :=
  (m.host.members m.owner m.kind).filter fun x => m.host.signature x = signature

/-- The compiled parameter of a member that a value parameter of the request stands for. -/
def valueParameter? (m : MemberMatcher) (request : MatchRequest) (x : DeclId) (i : Nat) :
    Option DeclId :=
  (m.host.parameters x)[request.implicitLeading + i]?

/-- The name of the compiled parameter that a value parameter of the request stands for. -/
def valueName? (m : MemberMatcher) (request : MatchRequest) (x : DeclId) (i : Nat) : Option String :=
  (m.valueParameter? request x i).map m.host.simpleName

variable {m : MemberMatcher} {request : MatchRequest} {x : DeclId}

/-- Whether a value parameter is the first one that is not called as in the request. -/
structure FirstMismatch (m : MemberMatcher) (request : MatchRequest) (x : DeclId) (position : Nat)
    (hostName descriptorName : String) : Prop where
  host : m.valueName? request x position = some hostName
  descriptor : request.name? position = some descriptorName
  ne : hostName ≠ descriptorName
  agree {i : Nat} : i < position → m.valueName? request x i = request.name? i

/-- What keeps the search from a match. -/
inductive Refuses (m : MemberMatcher) (request : MatchRequest) : ResolveError → Prop
  | missing (none : m.withSignature request.signature = []) :
      Refuses m request
        (.missingCorrespondence m.ownerName request.descriptor request.signature)
  | ambiguous (several : 2 ≤ (m.withSignature request.signature).length) :
      Refuses m request
        (.ambiguousCorrespondence m.ownerName request.descriptor request.signature
          ((m.withSignature request.signature).map m.host.describe))
  | count {x : DeclId} (only : m.withSignature request.signature = [x])
      (count : (m.host.parameters x).length ≠ request.count) :
      Refuses m request
        (.parameterCountMismatch (m.host.describe x) request.descriptor
          ((m.host.parameters x).length - (request.implicitLeading + request.implicitTrailing))
          request.parameters.length)
  | name {x : DeclId} {position : Nat} {hostName descriptorName : String}
      (only : m.withSignature request.signature = [x])
      (count : (m.host.parameters x).length = request.count)
      (mismatch : m.FirstMismatch request x position hostName descriptorName) :
      Refuses m request
        (.parameterMismatch (m.host.describe x) request.descriptor position hostName descriptorName)

/-- Whether a member is the only one with the requested signature and has the parameters of the
request. -/
structure Agrees (m : MemberMatcher) (request : MatchRequest) (x : DeclId) : Prop where
  only : m.withSignature request.signature = [x]
  count : (m.host.parameters x).length = request.count
  names {i : Nat} : i < request.parameters.length → m.valueName? request x i = request.name? i

private theorem filter_candidates (m : MemberMatcher) (signature : String) :
    m.candidates.filter (·.signature = signature) =
      (m.withSignature signature).map m.host.candidate :=
  List.filter_map

private theorem exact_of_only (h : m.withSignature request.signature = [x]) :
    m.exact request = .ok (m.host.candidate x) := by
  simp only [exact, filter_candidates, h, List.map_cons, List.map_nil]

private theorem exact_of_none (h : m.withSignature request.signature = []) :
    m.exact request =
      .error (.missingCorrespondence m.ownerName request.descriptor request.signature) := by
  simp only [exact, filter_candidates, h, List.map_nil]

private theorem exact_of_several (h : 2 ≤ (m.withSignature request.signature).length) :
    m.exact request = .error (.ambiguousCorrespondence m.ownerName request.descriptor
      request.signature ((m.withSignature request.signature).map m.host.describe)) := by
  simp only [exact, filter_candidates]
  match hlist : m.withSignature request.signature, h with
  | x :: y :: rest, _ => simp [Host.candidate, Function.comp_def]

/-- The compiled parameters of a member that the value parameters of the request stand for. -/
private def valuesOf (m : MemberMatcher) (request : MatchRequest) (x : DeclId) :
    List HostParameter :=
  ((m.host.candidate x).parameters.drop request.implicitLeading).take request.parameters.length

private theorem length_candidate (host : Host) (x : DeclId) :
    (host.candidate x).parameters.length = (host.parameters x).length :=
  List.length_map ..

private theorem length_valuesOf (hcount : (m.host.parameters x).length = request.count) :
    (m.valuesOf request x).length = request.parameters.length := by
  rw [valuesOf, List.length_take, List.length_drop, length_candidate, hcount, MatchRequest.count]
  omega

private theorem name?_valuesOf {i : Nat} (hi : i < request.parameters.length) :
    ((m.valuesOf request x)[i]?).map HostParameter.name = m.valueName? request x i := by
  rw [valuesOf, List.getElem?_take_of_lt hi, List.getElem?_drop]
  simp [valueName?, valueParameter?, Host.candidate, Host.hostParameter, Function.comp_def]

private theorem valueParameters_of_count (hcount : (m.host.parameters x).length = request.count) :
    m.valueParameters (m.host.candidate x) request =
      match firstMismatch? (m.valuesOf request x) request.parameters with
      | some (position, hostName, descriptorName) =>
        .error (.parameterMismatch (m.host.describe x) request.descriptor position hostName
          descriptorName)
      | none => .ok (m.valuesOf request x) := by
  have hvalues : request.count - (request.implicitLeading + request.implicitTrailing) =
      request.parameters.length := by
    unfold MatchRequest.count
    omega
  simp only [valueParameters, length_candidate, hcount, hvalues]
  rw [if_neg]
  · rfl
  · simp [MatchRequest.count]

private theorem valueParameters_of_count_ne
    (hcount : (m.host.parameters x).length ≠ request.count) :
    m.valueParameters (m.host.candidate x) request =
      .error (.parameterCountMismatch (m.host.describe x) request.descriptor
        ((m.host.parameters x).length - (request.implicitLeading + request.implicitTrailing))
        request.parameters.length) := by
  unfold MatchRequest.count at hcount
  simp only [valueParameters, length_candidate]
  rw [if_pos]
  · rfl
  · simp only [ne_eq, Bool.or_eq_true, decide_eq_true_eq]
    omega

/-- The search for a differing name finds the first one. -/
private theorem firstMismatch?_eq_some_iff {values : List HostParameter}
    {ps : List IndexedParameter} {position : Nat} {hostName descriptorName : String} :
    firstMismatch? values ps = some (position, hostName, descriptorName) ↔
      (values[position]?).map HostParameter.name = some hostName ∧
      (ps[position]?).map IndexedParameter.name = some descriptorName ∧
      hostName ≠ descriptorName ∧
      ∀ i < position, (values[i]?).map HostParameter.name = (ps[i]?).map IndexedParameter.name := by
  simp only [firstMismatch?, List.find?_eq_some_iff_getElem, List.getElem_mapIdx,
    List.getElem_zip, decide_eq_true_eq, ne_eq, decide_not, Bool.not_not, Prod.mk.injEq]
  constructor
  · rintro ⟨hne, i, hi, ⟨rfl, hhost, hdescriptor⟩, hbefore⟩
    obtain ⟨hv, hd⟩ : i < values.length ∧ i < ps.length := by
      simpa only [List.length_mapIdx, List.length_zip, Nat.lt_min] using hi
    refine ⟨by simp [hv, hhost], by simp [hd, hdescriptor], by simpa using hne, fun j hj => ?_⟩
    have hagree : values[j].name = ps[j].name := hbefore j hj
    rw [List.getElem?_eq_getElem (Nat.lt_trans hj hv), List.getElem?_eq_getElem (Nat.lt_trans hj hd),
      Option.map_some, Option.map_some, hagree]
  · rintro ⟨hhost, hdescriptor, hne, hbefore⟩
    obtain ⟨p, hp, rfl⟩ := Option.map_eq_some_iff.mp hhost
    obtain ⟨d, hd, rfl⟩ := Option.map_eq_some_iff.mp hdescriptor
    obtain ⟨hv, rfl⟩ := List.getElem?_eq_some_iff.mp hp
    obtain ⟨hd', rfl⟩ := List.getElem?_eq_some_iff.mp hd
    refine ⟨by simpa using hne, position, ?_, ⟨rfl, rfl, rfl⟩, fun j hj => ?_⟩
    · simp only [List.length_mapIdx, List.length_zip, Nat.lt_min]
      exact ⟨hv, hd'⟩
    · have hagree := hbefore j hj
      rw [List.getElem?_eq_getElem (Nat.lt_trans hj hv),
        List.getElem?_eq_getElem (Nat.lt_trans hj hd')] at hagree
      exact Option.some.inj hagree

private theorem lt_of_name? {i : Nat} {name : String} (h : request.name? i = some name) :
    i < request.parameters.length := by
  obtain ⟨d, hd, -⟩ := Option.map_eq_some_iff.mp h
  exact (List.getElem?_eq_some_iff.mp hd).1

private theorem firstMismatch?_valuesOf {position : Nat} {hostName descriptorName : String} :
    firstMismatch? (m.valuesOf request x) request.parameters =
        some (position, hostName, descriptorName) ↔
      m.FirstMismatch request x position hostName descriptorName := by
  have hname {i : Nat} (hi : i < request.parameters.length) :=
    name?_valuesOf (m := m) (x := x) hi
  rw [firstMismatch?_eq_some_iff]
  constructor
  · rintro ⟨hhost, hdescriptor, hne, hbefore⟩
    have hlt := lt_of_name? hdescriptor
    refine ⟨hname hlt ▸ hhost, hdescriptor, hne, fun {i} hi => ?_⟩
    rw [← hname (Nat.lt_trans hi hlt)]
    exact hbefore i hi
  · rintro ⟨hhost, hdescriptor, hne, hbefore⟩
    have hlt := lt_of_name? hdescriptor
    refine ⟨hname hlt ▸ hhost, hdescriptor, hne, fun i hi => ?_⟩
    rw [hname (Nat.lt_trans hi hlt)]
    exact hbefore hi

/-- What keeps the search from a match is what it fails with. -/
private theorem Refuses.find_eq {e : ResolveError} (h : m.Refuses request e) :
    m.find request = .error e := by
  cases h with
  | missing none =>
    simp only [find, exact_of_none none]
    rfl
  | ambiguous several =>
    simp only [find, exact_of_several several]
    rfl
  | count only count =>
    simp only [find, exact_of_only only, bind, Except.bind, valueParameters_of_count_ne count]
  | name only count mismatch =>
    simp only [find, exact_of_only only, bind, Except.bind, valueParameters_of_count count,
      firstMismatch?_valuesOf.mpr mismatch]

private theorem Agrees.exists_find (h : m.Agrees request x) :
    ∃ found, m.find request = .ok found := by
  have hnone : firstMismatch? (m.valuesOf request x) request.parameters = none := by
    rw [Option.eq_none_iff_forall_ne_some]
    rintro ⟨position, hostName, descriptorName⟩ hsome
    obtain ⟨hhost, hdescriptor, hne, -⟩ := firstMismatch?_valuesOf.mp hsome
    have hagree := h.names (lt_of_name? hdescriptor)
    rw [hhost, hdescriptor] at hagree
    exact hne (Option.some.inj hagree)
  cases hfind : m.find request with
  | ok found => exact ⟨found, rfl⟩
  | error e =>
    simp only [find, exact_of_only h.only, bind, Except.bind, valueParameters_of_count h.count,
      hnone] at hfind
    cases hfind

/-- A search is refused, or a member agrees. -/
private theorem refuses_or_agrees (m : MemberMatcher) (request : MatchRequest) :
    (∃ e, m.Refuses request e) ∨ ∃ x, m.Agrees request x := by
  match hlist : m.withSignature request.signature with
  | [] => exact .inl ⟨_, .missing hlist⟩
  | _ :: _ :: _ => exact .inl ⟨_, .ambiguous (by rw [hlist]; simp)⟩
  | [x] =>
    by_cases hcount : (m.host.parameters x).length = request.count
    · match hfirst : firstMismatch? (m.valuesOf request x) request.parameters with
      | some (position, hostName, descriptorName) =>
        exact .inl ⟨_, .name hlist hcount (firstMismatch?_valuesOf.mp hfirst)⟩
      | none =>
        refine .inr ⟨x, hlist, hcount, fun {i} hi => ?_⟩
        have hnames := congrArg (·[i]?)
          (firstMismatch?_eq_none (length_valuesOf hcount) hfirst)
        simp only [List.getElem?_map, name?_valuesOf hi] at hnames
        exact hnames
    · exact .inl ⟨_, .count hlist hcount⟩

/-- The search fails exactly with what keeps it from a match. -/
theorem find_eq_error_iff {e : ResolveError} :
    m.find request = .error e ↔ m.Refuses request e := by
  refine ⟨fun h => ?_, Refuses.find_eq⟩
  obtain ⟨e', he'⟩ | ⟨x, hx⟩ := m.refuses_or_agrees request
  · obtain rfl := Except.error.inj (h.symm.trans he'.find_eq)
    exact he'
  · obtain ⟨found, hfound⟩ := hx.exists_find
    cases h.symm.trans hfound

theorem mem_withSignature {signature : String} : x ∈ m.withSignature signature ↔
    x ∈ m.host.members m.owner m.kind ∧ m.host.signature x = signature := by
  rw [withSignature, List.mem_filter, decide_eq_true_eq]

/-- The search only complains about the number of parameters where a member with the signature has
another number of them. -/
theorem find_ne_parameterCountMismatch
    (hcount : ∀ d ∈ m.host.members m.owner m.kind, m.host.signature d = request.signature →
      (m.host.parameters d).length =
        request.implicitLeading + request.parameters.length + request.implicitTrailing)
    (host descriptor : String) (hostCount descriptorCount : Nat) :
    m.find request ≠ .error (.parameterCountMismatch host descriptor hostCount descriptorCount) := by
  intro h
  cases find_eq_error_iff.mp h with
  | @count x only count =>
    obtain ⟨hmem, hsignature⟩ := mem_withSignature.mp (only ▸ List.mem_singleton_self x)
    exact count (hcount x hmem hsignature)

/-- A match names the member that agrees, and the compiled parameters of its value parameters. -/
theorem agrees_of_find {found : MemberMatch} (h : m.find request = .ok found) :
    m.Agrees request found.host := by
  obtain ⟨e, he⟩ | ⟨x, hx⟩ := m.refuses_or_agrees request
  · cases h.symm.trans he.find_eq
  · obtain ⟨hmem, hsignature⟩ := mem_withSignature.mp (hx.only ▸ List.mem_singleton_self x)
    rwa [← (find_eq_ok h).unique hmem hsignature]

theorem Fits.length_parameters {found : MemberMatch} (h : m.Fits request found) :
    found.parameters.length = request.parameters.length := by
  simpa using congrArg List.length h.names

/-- The compiled parameter of a value parameter stands after the implicit ones. -/
theorem Fits.host_parameter {found : MemberMatch} (h : m.Fits request found) {i : Nat}
    (hi : i < request.parameters.length) :
    (found.parameters[i]?).map ParameterMatch.host = m.valueParameter? request found.host i := by
  rw [← List.getElem?_map, h.hosts, List.getElem?_take_of_lt hi, List.getElem?_drop]
  rfl

/-- The search is decided by the members with the requested signature. Without one it misses the
correspondence, and with several it names them all, in order. With one it complains about the number
of its parameters, or else about the first value parameter with another name, or else it finds the
member and the compiled parameter of each value parameter. -/
theorem find_decides (m : MemberMatcher) (request : MatchRequest) :
    (∀ e, m.find request = .error e ↔ m.Refuses request e) ∧
    ((∃ found, m.find request = .ok found) ↔ ∃ x, m.Agrees request x) ∧
    ∀ found, m.find request = .ok found → m.Agrees request found.host ∧
      found.parameters.length = request.parameters.length ∧
      ∀ i < request.parameters.length,
        (found.parameters[i]?).map ParameterMatch.host = m.valueParameter? request found.host i := by
  refine ⟨fun e => find_eq_error_iff, ⟨?_, ?_⟩, fun found h => ?_⟩
  · rintro ⟨found, h⟩
    exact ⟨found.host, agrees_of_find h⟩
  · rintro ⟨x, hx⟩
    exact hx.exists_find
  · have fits := find_eq_ok h
    exact ⟨agrees_of_find h, fits.length_parameters, fun i => fits.host_parameter⟩

end MemberMatcher

/-- A class with an extension `f(x, y)` that may suspend, the sibling without `y`, three methods with
one signature, and a method with one parameter. -/
def DeclTree.suspending : DeclTree :=
  let t := ({} : DeclTree).addPackage "p"
  let t := t.addType ⟨0⟩ .classType "C"
  let t := t.addMethod ⟨1⟩ "f" .void
  let t := t.addParameter ⟨2⟩ "self" .int
  let t := t.addParameter ⟨2⟩ "x" .int
  let t := t.addParameter ⟨2⟩ "y" .long
  let t := t.addParameter ⟨2⟩ "next" .int
  let t := t.addMethod ⟨1⟩ "f" .void
  let t := t.addParameter ⟨7⟩ "self" .int
  let t := t.addParameter ⟨7⟩ "x" .int
  let t := t.addParameter ⟨7⟩ "next" .int
  let t := t.addMethod ⟨1⟩ "g" .void
  let t := t.addMethod ⟨1⟩ "g" .void
  let t := t.addMethod ⟨1⟩ "g" .void
  let t := t.addMethod ⟨1⟩ "h" .void
  t.addParameter ⟨14⟩ "a" .int

namespace MemberMatcher

/-- The matcher for the methods of the class. -/
def ofSuspending : MemberMatcher :=
  { host := DeclTree.suspending.toHost, owner := ⟨1⟩, kind := .method }

/-- The request for a function with two value parameters, of which the last one may be left out. -/
def requestOfSuspending (second : String) : MatchRequest :=
  { descriptor := "f", signature := "f(IIJI)V"
    parameters := [{ name := "x" }, { name := second, hasDefault := true }]
    implicitLeading := 1, implicitTrailing := 1 }

/-- All outcomes occur, also that a member has fewer parameters than the implicit ones. -/
theorem find_decides_suspending :
    let missing : MatchRequest := { descriptor := "k", signature := "k()V" }
    let several : MatchRequest := { descriptor := "g", signature := "g()V" }
    let short : MatchRequest :=
      { descriptor := "h", signature := "h(I)V", implicitLeading := 1, implicitTrailing := 1 }
    ofSuspending.find missing = .error (.missingCorrespondence "p.C" "k" "k()V") ∧
    ofSuspending.find several =
      .error (.ambiguousCorrespondence "p.C" "g" "g()V" ["p.C.g()", "p.C.g()", "p.C.g()"]) ∧
    ofSuspending.find short = .error (.parameterCountMismatch "p.C.h(int)" "h" 0 0) ∧
    ofSuspending.find (requestOfSuspending "z") =
      .error (.parameterMismatch "p.C.f(int, int, long, int)" "f" 1 "y" "z") ∧
    ∃ found, ofSuspending.find (requestOfSuspending "y") = .ok found ∧
      (found.parameters[1]?).map ParameterMatch.host = some ⟨5⟩ := by
  intro missing several short
  have decides := find_decides ofSuspending
  refine ⟨((decides missing).1 _).mpr (.missing rfl),
    ((decides several).1 _).mpr (.ambiguous (by decide)),
    ((decides short).1 _).mpr (.count (x := ⟨14⟩) rfl (by decide)),
    ((decides (requestOfSuspending "z")).1 _).mpr (.name (x := ⟨2⟩) rfl rfl ?_), ?_⟩
  · refine ⟨rfl, rfl, by decide, fun {i} hi => ?_⟩
    obtain rfl : i = 0 := by omega
    rfl
  · obtain ⟨-, hfind, hfound⟩ := decides (requestOfSuspending "y")
    obtain ⟨found, h⟩ := hfind.mpr ⟨⟨2⟩, rfl, rfl, fun {i} hi => by
      match i, hi with
      | 0, _ => rfl
      | 1, _ => rfl⟩
    obtain ⟨hagrees, -, hhosts⟩ := hfound found h
    have honly : [(⟨2⟩ : DeclId)] = [found.host] := hagrees.only
    refine ⟨found, h, ?_⟩
    rw [hhosts 1 (by decide), ← List.singleton_inj.mp honly]
    rfl

end MemberMatcher

end Correspondence
