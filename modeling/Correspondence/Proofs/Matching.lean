import Correspondence.Matching

/-!
# Matches

What a successful match says: which compiled members it names, and which of their parameters belong
to which descriptor parameter.
-/

namespace Correspondence

theorem HostParameter.sameAs_iff {p q : HostParameter} :
    p.sameAs q ↔ p.name = q.name ∧ p.type = q.type := by
  simp only [sameAs, Bool.and_eq_true, decide_eq_true_eq]

/-- The names and erased types of the parameters of a member, in order. -/
def Host.parameterKeys (host : Host) (id : DeclId) : List (String × Option JvmType) :=
  (host.parameters id).map fun p => (host.simpleName p, (host.type p).map JvmType.erased)

namespace MemberMatcher

variable {m : MemberMatcher} {request : MatchRequest} {found : MemberMatch}

/-- Whether a member is a sibling of the matched one: it has the same name, a signature of its own,
no parameters but those of the matched member, and all that are required. -/
structure Sibling (m : MemberMatcher) (request : MatchRequest) (host s : DeclId) : Prop where
  name : m.host.simpleName s = m.host.simpleName host
  signature : m.host.signature s ≠ request.signature
  /-- No descriptor records the signature. -/
  free : m.index.any (·.reserves m.kind (m.host.signature s)) = false
  known : m.host.parameterKeys s ⊆ m.host.parameterKeys host
  required {i : Nat} {key : String × Option JvmType} : (m.host.parameterKeys host)[i]? = some key →
    request.isRequired i → key ∈ m.host.parameterKeys s

/-- Whether a match fits the request that it answers. -/
structure Fits (m : MemberMatcher) (request : MatchRequest) (found : MemberMatch) : Prop where
  host_mem : found.host ∈ m.host.members m.owner m.kind
  signature : m.host.signature found.host = request.signature
  /-- No other member has the signature. -/
  unique {x : DeclId} : x ∈ m.host.members m.owner m.kind →
    m.host.signature x = request.signature → x = found.host
  mem_overloads {s : DeclId} : s ∈ found.overloads ↔
    s ∈ m.host.members m.owner m.kind ∧ m.Sibling request found.host s
  count : (m.host.parameters found.host).length =
    request.implicitLeading + request.parameters.length + request.implicitTrailing
  /-- The value parameters stand between the implicit ones. -/
  hosts : found.parameters.map ParameterMatch.host =
    ((m.host.parameters found.host).drop request.implicitLeading).take request.parameters.length
  names : (found.parameters.map ParameterMatch.host).map m.host.simpleName =
    request.parameters.map IndexedParameter.name
  /-- A parameter of a sibling belongs to a value parameter with its name and type. -/
  same {p : ParameterMatch} {x : DeclId} : p ∈ found.parameters → x ∈ p.overloads →
    ∃ s ∈ found.overloads, x ∈ m.host.parameters s ∧
      (m.host.hostParameter p.host).sameAs (m.host.hostParameter x)
  /-- Where there is such a value parameter, the parameter of the sibling belongs to one. -/
  covered {s x : DeclId} {p : ParameterMatch} : s ∈ found.overloads → x ∈ m.host.parameters s →
    p ∈ found.parameters → (m.host.hostParameter p.host).sameAs (m.host.hostParameter x) →
    ∃ q ∈ found.parameters, x ∈ q.overloads

theorem Fits.mem_members (h : m.Fits request found) {s : DeclId} (hs : s ∈ found.hosts) :
    s ∈ m.host.members m.owner m.kind := by
  rcases List.mem_cons.mp hs with rfl | hs
  · exact h.host_mem
  · exact (h.mem_overloads.mp hs).1

theorem Fits.overload_ne (h : m.Fits request found) {s : DeclId} (hs : s ∈ found.overloads) :
    s ≠ found.host := by
  rintro rfl
  exact (h.mem_overloads.mp hs).2.signature h.signature

theorem Fits.host_parameter_mem (h : m.Fits request found) {p : ParameterMatch}
    (hp : p ∈ found.parameters) : p.host ∈ m.host.parameters found.host := by
  have hmem := List.mem_map_of_mem (f := ParameterMatch.host) hp
  rw [h.hosts] at hmem
  exact List.mem_of_mem_drop (List.mem_of_mem_take hmem)

private theorem mem_candidates {c : Candidate} :
    c ∈ m.candidates ↔ c.decl ∈ m.host.members m.owner m.kind ∧ c = m.host.candidate c.decl := by
  constructor
  · intro h
    obtain ⟨x, hx, rfl⟩ := List.mem_map.mp h
    exact ⟨hx, rfl⟩
  · rintro ⟨hmem, heq⟩
    rw [heq]
    exact List.mem_map_of_mem hmem

private theorem exact_eq_ok {matched : Candidate} (h : m.exact request = .ok matched) {c : Candidate} :
    c ∈ m.candidates ∧ c.signature = request.signature ↔ c = matched := by
  unfold exact at h
  split at h
  · rename_i only honly
    obtain rfl := Except.ok.inj h
    rw [← List.mem_singleton (a := c), ← honly, List.mem_filter, decide_eq_true_eq]
  · cases h
  · cases h

private theorem parameterKeys_eq (host : Host) (id : DeclId) :
    host.parameterKeys id = (host.candidate id).parameters.map fun p => (p.name, p.type) := by
  simp [Host.candidate, Host.hostParameter, Host.parameterKeys]

private theorem any_sameAs_iff {host : Host} {id : DeclId} {p : HostParameter} :
    ((host.candidate id).parameters.any (·.sameAs p)) = true ↔
      (p.name, p.type) ∈ host.parameterKeys id := by
  simp [parameterKeys_eq, HostParameter.sameAs]

private theorem mem_required_iff {matched : Candidate} {p : HostParameter} :
    p ∈ required matched request ↔
      ∃ i : Nat, matched.parameters[i]? = some p ∧ request.isRequired i = true := by
  simp only [required, List.mem_map, List.mem_filter, List.mem_mapIdx]
  constructor
  · rintro ⟨_, ⟨⟨i, hi, rfl⟩, hreq⟩, rfl⟩
    exact ⟨i, List.getElem?_eq_getElem hi, hreq⟩
  · rintro ⟨i, hp, hreq⟩
    obtain ⟨hi, rfl⟩ := List.getElem?_eq_some_iff.mp hp
    exact ⟨(i, _), ⟨⟨i, hi, rfl⟩, hreq⟩, rfl⟩

/-- The members that the search takes for siblings are the siblings. -/
private theorem isSibling_iff {host s : DeclId} (hhost : m.host.signature host = request.signature) :
    m.isSibling (m.host.candidate host) (required (m.host.candidate host) request)
      (m.host.candidate s) = true ↔ m.Sibling request host s := by
  have hknown : ((m.host.candidate s).parameters.all fun p =>
      (m.host.candidate host).parameters.any (·.sameAs p)) = true ↔
      m.host.parameterKeys s ⊆ m.host.parameterKeys host := by
    rw [parameterKeys_eq m.host s, List.all_eq_true, List.subset_def, List.forall_mem_map]
    exact forall₂_congr fun p _ => any_sameAs_iff
  have hrequired : ((required (m.host.candidate host) request).all fun needed =>
      (m.host.candidate s).parameters.any (·.sameAs needed)) = true ↔
      ∀ i key, (m.host.parameterKeys host)[i]? = some key → request.isRequired i = true →
        key ∈ m.host.parameterKeys s := by
    rw [parameterKeys_eq m.host host, List.all_eq_true]
    simp only [any_sameAs_iff, mem_required_iff, List.getElem?_map, Option.map_eq_some_iff]
    constructor
    · rintro h i _ ⟨p, hp, rfl⟩ hi
      exact h p ⟨i, hp, hi⟩
    · rintro h p ⟨i, hp, hi⟩
      exact h i _ ⟨p, hp, rfl⟩ hi
  simp only [isSibling, Bool.and_eq_true, hknown, hrequired, decide_eq_true_eq, Bool.not_eq_true']
  constructor
  · rintro ⟨⟨⟨⟨⟨-, hname⟩, hsignature⟩, hfree⟩, hknown⟩, hrequired⟩
    exact ⟨hname, hhost ▸ hsignature, hfree, hknown, fun {i key} => hrequired i key⟩
  · rintro ⟨hname, hsignature, hfree, hknown, hrequired⟩
    refine ⟨⟨⟨⟨⟨?_, hname⟩, ?_⟩, hfree⟩, hknown⟩, fun i key => hrequired⟩
    · rintro rfl
      exact hsignature hhost
    · exact fun h => hsignature (h.trans hhost)

theorem firstMismatch?_eq_none {values : List HostParameter} {ps : List IndexedParameter}
    (hl : values.length = ps.length) (h : firstMismatch? values ps = none) :
    values.map HostParameter.name = ps.map IndexedParameter.name := by
  simp only [firstMismatch?, List.find?_eq_none, List.mem_mapIdx] at h
  apply List.ext_getElem
  · simpa using hl
  · intro i hi hi'
    simp only [List.length_map] at hi hi'
    have := h _ ⟨i, by simp; omega, rfl⟩
    simpa using this

private theorem valueParameters_eq_ok {matched : Candidate} {values : List HostParameter}
    (h : m.valueParameters matched request = .ok values) :
    matched.parameters.length =
        request.implicitLeading + request.parameters.length + request.implicitTrailing ∧
      values = (matched.parameters.drop request.implicitLeading).take request.parameters.length ∧
      values.map HostParameter.name = request.parameters.map IndexedParameter.name := by
  simp only [valueParameters] at h
  split at h
  · cases h
  · rename_i hcount
    simp only [ne_eq, Bool.or_eq_true, decide_eq_true_eq, not_or, Nat.not_lt,
      Decidable.not_not] at hcount
    split at h
    · cases h
    · rename_i hnames
      obtain rfl := Except.ok.inj h
      rw [hcount.2] at hnames ⊢
      refine ⟨by omega, rfl, firstMismatch?_eq_none ?_ hnames⟩
      simp only [List.length_take, List.length_drop]
      omega

private theorem mem_siblingParameters {values : List HostParameter} {siblings : List Candidate}
    {position : Nat} {x : DeclId} : x ∈ siblingParameters values siblings position ↔
      ∃ c ∈ siblings, ∃ p ∈ c.parameters,
        values.findIdx? (·.sameAs p) = some position ∧ p.decl = x := by
  simp only [siblingParameters, List.mem_filterMap, List.mem_flatMap]
  constructor
  · rintro ⟨p, ⟨c, hc, hp⟩, hx⟩
    split at hx
    · exact ⟨c, hc, p, hp, by assumption, Option.some.inj hx⟩
    · cases hx
  · rintro ⟨c, hc, p, hp, hpos, rfl⟩
    exact ⟨p, ⟨c, hc, hp⟩, by simp [hpos]⟩

/-- A match is made of a candidate, its value parameters and its siblings. -/
private theorem exists_of_find (h : m.find request = .ok found) :
    ∃ matched, m.exact request = .ok matched ∧
      ∃ values, m.valueParameters matched request = .ok values ∧
      ∃ siblings, siblings = m.candidates.filter (m.isSibling matched (required matched request)) ∧
        found = ⟨matched.decl, siblings.map Candidate.decl, values.mapIdx fun position p =>
          ⟨p.decl, siblingParameters values siblings position⟩⟩ := by
  simp only [find, bind, Except.bind] at h
  split at h
  · cases h
  rename_i matched hmatched
  split at h
  · cases h
  rename_i values hvalues
  obtain rfl := Except.ok.inj h
  exact ⟨matched, hmatched, values, hvalues, _, rfl, rfl⟩

theorem find_eq_ok (h : m.find request = .ok found) : m.Fits request found := by
  obtain ⟨matched, hexact, values, hvalues, siblings, hsiblings, rfl⟩ := exists_of_find h
  obtain ⟨hmatched, hsignature⟩ := (exact_eq_ok hexact).mpr rfl
  obtain ⟨hmem, heq⟩ := mem_candidates.mp hmatched
  have hparams : matched.parameters = (m.host.parameters matched.decl).map m.host.hostParameter := by
    rw [heq]
    rfl
  have hsig : m.host.signature matched.decl = request.signature := by
    rw [heq] at hsignature
    exact hsignature
  have sibling {c : Candidate} : c ∈ siblings ↔ c.decl ∈ m.host.members m.owner m.kind ∧
      m.Sibling request matched.decl c.decl ∧ c = m.host.candidate c.decl := by
    rw [hsiblings, List.mem_filter, mem_candidates, and_assoc, and_comm (a := c = _)]
    refine and_congr_right fun _ => and_congr_left fun hc => ?_
    rw [heq, hc]
    exact isSibling_iff hsig
  obtain ⟨hcount, hvals, hnames⟩ := valueParameters_eq_ok hvalues
  have value {v : HostParameter} (hv : v ∈ values) : m.host.hostParameter v.decl = v := by
    rw [hvals] at hv
    have hv := List.mem_of_mem_drop (List.mem_of_mem_take hv)
    rw [hparams] at hv
    obtain ⟨x, -, rfl⟩ := List.mem_map.mp hv
    rfl
  have hdecls : (values.mapIdx fun position p =>
      (⟨p.decl, siblingParameters values siblings position⟩ : ParameterMatch)).map
      ParameterMatch.host = values.map HostParameter.decl := by
    apply List.ext_getElem <;> simp
  constructor
  case host_mem =>
    exact hmem
  case signature =>
    exact hsig
  case unique =>
    intro x hx hsig'
    have heq : m.host.candidate x = matched :=
      (exact_eq_ok hexact).mp ⟨mem_candidates.mpr ⟨hx, rfl⟩, hsig'⟩
    exact congrArg Candidate.decl heq
  case mem_overloads =>
    intro s
    constructor
    · intro hs
      obtain ⟨c, hc, rfl⟩ := List.mem_map.mp hs
      obtain ⟨hmem, hs, -⟩ := sibling.mp hc
      exact ⟨hmem, hs⟩
    · rintro ⟨hmem, hs⟩
      exact List.mem_map.mpr ⟨m.host.candidate s, sibling.mpr ⟨hmem, hs, rfl⟩, rfl⟩
  case count =>
    rw [hparams, List.length_map] at hcount
    exact hcount
  case hosts =>
    rw [hdecls, hvals, hparams, ← List.map_drop, ← List.map_take, List.map_map]
    exact List.map_id _
  case names =>
    rw [hdecls, ← hnames, List.map_map]
    apply List.map_congr_left
    intro v hv
    exact congrArg HostParameter.name (value hv)
  case same =>
    intro p x hp hx
    obtain ⟨i, hi, rfl⟩ := List.mem_mapIdx.mp hp
    obtain ⟨c, hc, q, hq, hpos, rfl⟩ := mem_siblingParameters.mp hx
    obtain ⟨-, -, heq⟩ := sibling.mp hc
    rw [heq] at hq
    obtain ⟨y, hy, rfl⟩ := List.mem_map.mp hq
    obtain ⟨_, hsame, -⟩ := List.findIdx?_eq_some_iff_getElem.mp hpos
    refine ⟨c.decl, List.mem_map_of_mem hc, hy, ?_⟩
    rw [value (List.getElem_mem hi)]
    exact hsame
  case covered =>
    intro s x p hs hx hp hsame
    obtain ⟨c, hc, rfl⟩ := List.mem_map.mp hs
    obtain ⟨i, hi, rfl⟩ := List.mem_mapIdx.mp hp
    rw [value (List.getElem_mem hi)] at hsame
    have hfirst : (values.findIdx? (·.sameAs (m.host.hostParameter x))).isSome := by
      rw [List.findIdx?_isSome, List.any_eq_true]
      exact ⟨_, List.getElem_mem hi, hsame⟩
    obtain ⟨j, hj⟩ := Option.isSome_iff_exists.mp hfirst
    obtain ⟨hjl, -⟩ := List.findIdx?_eq_some_iff_getElem.mp hj
    refine ⟨_, List.mem_mapIdx.mpr ⟨j, hjl, rfl⟩, mem_siblingParameters.mpr ⟨c, hc, _, ?_, hj, rfl⟩⟩
    obtain ⟨-, -, heq⟩ := sibling.mp hc
    rw [heq]
    exact List.mem_map_of_mem hx

end MemberMatcher

end Correspondence
