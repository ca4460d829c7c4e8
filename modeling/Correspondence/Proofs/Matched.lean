import Correspondence.Proofs.Claims

/-!
# Functions and constructors of a complete batch

A function or constructor stands for the members of its match, and lists one element for each value
parameter of the match.
-/

namespace Correspondence

/-- The siblings that a function or constructor stands for. -/
def Element.overloads : Element → List DeclId
  | .function f => f.overloads
  | .constructor f => f.overloads
  | _ => []

/-- The number of compiled parameters before the value parameters. -/
def Element.implicitLeading : Element → Nat
  | .function f => f.implicitLeading
  | _ => 0

/-- The number of compiled parameters after the value parameters. -/
def Element.implicitTrailing : Element → Nat
  | .function f => f.implicitTrailing
  | _ => 0

@[simp] theorem Element.implicitLeading_mapIds (f : ElementId → ElementId) (e : Element) :
    (e.mapIds f).implicitLeading = e.implicitLeading := by
  cases e <;> rfl

@[simp] theorem Element.implicitTrailing_mapIds (f : ElementId → ElementId) (e : Element) :
    (e.mapIds f).implicitTrailing = e.implicitTrailing := by
  cases e <;> rfl

@[simp] theorem Element.overloads_mapIds (f : ElementId → ElementId) (e : Element) :
    (e.mapIds f).overloads = e.overloads := by
  cases e <;> rfl

namespace Container

variable {c : Container} {index : DescriptorIndex} {b : Batch} {id : ElementId} {e : Element}
  {ids : List ElementId}

/-- What a function or constructor that lists the given parameters is made of. -/
structure Matched (c : Container) (index : DescriptorIndex) (b : Batch) (id : ElementId)
    (e : Element) (ids : List ElementId) (kind : DeclKind) (request : MatchRequest)
    (found : MemberMatch) : Prop where
  kind_mem : kind ∈ [DeclKind.method, .constructor]
  fits : (c.matcher kind index).Fits request found
  hostForms : e.hostForms = found.hosts
  overloads : e.overloads = found.overloads
  parameters : b.LinesUp ids (parameterElements id found request.parameters)
  implicitLeading : e.implicitLeading = request.implicitLeading
  implicitTrailing : e.implicitTrailing = request.implicitTrailing

private theorem idxOf?_any_eq_false (l : List DeclId) (d : DeclId) :
    ((l.idxOf? d).any fun position => position < 0 || l.length - 0 ≤ position) = false := by
  cases hd : l.idxOf? d with
  | none => rfl
  | some position =>
    obtain ⟨hlt, -⟩ := List.findIdx?_eq_some_iff_getElem.mp hd
    simpa using hlt

/-- A parameter is implicit if it stands before or after the value parameters. -/
theorem isImplicitParameter_eq (host : Host) (executable d : DeclId) (he : e.parameters? = some ids) :
    Resolver.isImplicitParameter host executable d (some e) =
      ((host.parameters executable).idxOf? d).any fun position =>
        position < e.implicitLeading ||
          (host.parameters executable).length - e.implicitTrailing ≤ position := by
  cases e with
  | function f => rfl
  | constructor f => exact (idxOf?_any_eq_false _ _).symm
  | _ => cases he

theorem Stage.matched {constructors : List ConstructorDescriptor}
    {functions : List FunctionDescriptor}
    (hindex : List.Forall₂ IndexedFunction.Describes index.functions functions)
    (hst : c.Stage index constructors functions b) (he : b.get? id = some e)
    (hids : e.parameters? = some ids) :
    ∃ kind request found, c.Matched index b id e ids kind request found := by
  have hacc := hst.accounted he
  cases e with
  | function f =>
    obtain ⟨x, hx, found, hmade⟩ := hacc
    obtain rfl : f.parameters = ids := Option.some.inj hids
    have hdescribes := (List.forall₂_iff_zip.mp hindex).2 hx
    have fits := MemberMatcher.find_eq_ok hmade.find_eq
    refine ⟨.method, .ofFunction x.1, found, by simp, fits, ?_, ?_, hmade.parameters, ?_, ?_⟩ <;>
      rw [hmade.eq]
    · rfl
    · rfl
    · exact congrArg Bool.toNat hdescribes.hasReceiver.symm
    · exact congrArg Bool.toNat hdescribes.isSuspending.symm
  | constructor f =>
    obtain ⟨x, hx, found, hmade⟩ := hacc
    obtain rfl : f.parameters = ids := Option.some.inj hids
    have fits := MemberMatcher.find_eq_ok hmade.find_eq
    refine ⟨.constructor, .ofConstructor x.1, found, by simp, fits, ?_, ?_, hmade.parameters,
      rfl, rfl⟩ <;> rw [hmade.eq] <;> rfl
  | _ => cases hids

variable {kind : DeclKind} {request : MatchRequest} {found : MemberMatch}

/-- What the function or constructor lists are value parameters of the match. -/
theorem Matched.exists_of_mem (h : c.Matched index b id e ids kind request found) {j : ElementId}
    (hj : j ∈ ids) : ∃ p, b.get? j = some (.parameter p) ∧ p.owner = id ∧
      ∃ m ∈ found.parameters, p.host = m.host ∧ p.overloadHosts = m.overloads := by
  obtain ⟨e', he', hget⟩ := h.parameters.exists_of_mem hj
  obtain ⟨⟨⟨m, param⟩, position⟩, hx, rfl⟩ := List.mem_map.mp he'
  exact ⟨_, hget, rfl, m, (List.of_mem_zip (List.fst_mem_of_mem_zipIdx hx)).1, rfl, rfl⟩

/-- All that the match gives to a value parameter is claimed. -/
theorem Matched.claimed (h : c.Matched index b id e ids kind request found)
    (hb : b.Sound c.host c.decl) {m : ParameterMatch} (hm : m ∈ found.parameters) {d : DeclId}
    (hd : d ∈ m.host :: m.overloads) : ∃ j, b.claims.find? d = some j := by
  have hlength : found.parameters.length ≤ request.parameters.length := by
    have := congrArg List.length h.fits.names
    simp only [List.length_map] at this
    omega
  rw [← List.map_fst_zip hlength] at hm
  obtain ⟨⟨m, param⟩, hx, rfl⟩ := List.mem_map.mp hm
  obtain ⟨position, hposition⟩ := List.mem_iff_getElem?.mp hx
  obtain ⟨j, -, hj⟩ := h.parameters.exists_of_mem_right
    (List.mem_map_of_mem (List.mk_mem_zipIdx_iff_getElem?.mpr hposition))
  exact ⟨j, hb.claimed.mpr ⟨_, hj, hd⟩⟩

theorem Matched.isImplicit (h : c.Matched index b id e ids kind request found)
    (he : e.parameters? = some ids) (executable d : DeclId) :
    Resolver.isImplicitParameter c.host executable d (some e) =
      ((c.host.parameters executable).idxOf? d).any fun position =>
        position < request.implicitLeading ||
          (c.host.parameters executable).length - request.implicitTrailing ≤ position := by
  rw [isImplicitParameter_eq _ _ _ he, h.implicitLeading, h.implicitTrailing]

/-- A compiled parameter of the matched member that is no implicit one belongs to a value
parameter. -/
theorem Matched.exists_of_not_isImplicit (h : c.Matched index b id e ids kind request found)
    (he : e.parameters? = some ids) {d : DeclId} (hd : d ∈ c.host.parameters found.host)
    (himplicit : Resolver.isImplicitParameter c.host found.host d (some e) = false) :
    ∃ m ∈ found.parameters, m.host = d := by
  rw [h.isImplicit he] at himplicit
  obtain ⟨position, hposition⟩ := Option.isSome_iff_exists.mp (List.isSome_idxOf?.mpr hd)
  obtain ⟨hlt, hget, -⟩ := List.idxOf?_eq_some_iff.mp hposition
  simp only [hposition, Option.any_some, Bool.or_eq_false_iff, decide_eq_false_iff_not] at himplicit
  have hcount : (c.host.parameters found.host).length =
    request.implicitLeading + request.parameters.length + request.implicitTrailing := h.fits.count
  have hmem : d ∈ found.parameters.map ParameterMatch.host := by
    rw [h.fits.hosts]
    change d ∈ ((c.host.parameters found.host).drop _).take _
    apply List.mem_iff_getElem.mpr
    refine ⟨position - request.implicitLeading, ?_, ?_⟩
    · simp only [List.length_take, List.length_drop]
      omega
    · have hadd : request.implicitLeading + (position - request.implicitLeading) = position := by
        omega
      simpa [hadd] using hget
  obtain ⟨m, hm, hhost⟩ := List.mem_map.mp hmem
  exact ⟨m, hm, hhost⟩

/-- A compiled parameter of a sibling with the name and the type of a value parameter is claimed. -/
theorem Matched.claimed_of_sameAs (h : c.Matched index b id e ids kind request found)
    (hb : b.Sound c.host c.decl) {sibling d : DeclId} (hs : sibling ∈ e.overloads)
    (hd : d ∈ c.host.parameters sibling) {m : ParameterMatch} (hm : m ∈ found.parameters)
    (hsame : (c.host.hostParameter m.host).sameAs (c.host.hostParameter d)) :
    ∃ j, b.claims.find? d = some j := by
  obtain ⟨m', hm', hmem⟩ := h.fits.covered (h.overloads ▸ hs) hd hm hsame
  exact h.claimed hb hm' (List.mem_cons_of_mem _ hmem)

/-- A class or function lists one element for each type parameter of its foremost declaration. -/
theorem Complete.typeParameters (h : c.Complete b) (he : b.get? id = some e)
    (hids : e.typeParameters? = some ids) :
    ∃ decl descriptors, e.host? = some decl ∧
      (c.host.typeParameters decl).length = descriptors.length ∧
      b.LinesUp ids (c.typeParameterElements id decl descriptors) := by
  obtain ⟨index, constructors, functions, -, hst⟩ := h.stage
  have hacc := hst.accounted he
  cases e with
  | type t =>
    obtain ⟨e', he', -, hforms, hlines⟩ := h.container
    obtain rfl : id = c.owner := hacc
    obtain rfl := Option.some.inj (he.symm.trans he')
    obtain ⟨descriptors, hlength, hlines⟩ := hlines ids hids
    exact ⟨c.decl, descriptors, by rw [Element.host?, hforms]; rfl, hlength, hlines⟩
  | function f =>
    obtain ⟨x, -, found, hmade⟩ := hacc
    obtain rfl : f.typeParameters = ids := Option.some.inj hids
    refine ⟨found.host, _, ?_, hmade.length_eq, hmade.typeParameters⟩
    rw [hmade.eq]
    rfl
  | _ => cases hids

/-- What a class or function lists as type parameters are type parameters. -/
theorem Complete.exists_typeParameter (h : c.Complete b) (he : b.get? id = some e)
    (hids : e.typeParameters? = some ids) {j : ElementId} (hj : j ∈ ids) :
    ∃ p, b.get? j = some (.typeParameter p) := by
  obtain ⟨decl, descriptors, -, -, hlines⟩ := h.typeParameters he hids
  obtain ⟨e', he', hget⟩ := hlines.exists_of_mem hj
  obtain ⟨x, -, rfl⟩ := List.mem_map.mp he'
  exact ⟨_, hget⟩

/-- What a function or constructor lists as parameters are parameters. -/
theorem Complete.exists_parameter (h : c.Complete b) (he : b.get? id = some e)
    (hids : e.parameters? = some ids) {j : ElementId} (hj : j ∈ ids) :
    ∃ p, b.get? j = some (.parameter p) := by
  obtain ⟨index, constructors, functions, hindex, hst⟩ := h.stage
  obtain ⟨kind, request, found, hmatched⟩ := hst.matched hindex he hids
  obtain ⟨p, hp, -⟩ := hmatched.exists_of_mem hj
  exact ⟨p, hp⟩

/-- A parameter is a value parameter of the match of what lists it. -/
theorem Stage.exists_matched {constructors : List ConstructorDescriptor}
    {functions : List FunctionDescriptor}
    (hindex : List.Forall₂ IndexedFunction.Describes index.functions functions)
    (hst : c.Stage index constructors functions b) {p : ParameterElement}
    (hp : b.get? id = some (.parameter p)) :
    ∃ e ids kind request found, b.get? p.owner = some e ∧ e.parameters? = some ids ∧ id ∈ ids ∧
      c.Matched index b p.owner e ids kind request found ∧
      ∃ m ∈ found.parameters, p.host = m.host ∧ p.overloadHosts = m.overloads := by
  obtain ⟨e, ids, he, hids, hid⟩ := hst.accounted hp
  obtain ⟨kind, request, found, hmatched⟩ := hst.matched hindex he hids
  obtain ⟨p', hp', -, m, hm, hhost, hoverloads⟩ := hmatched.exists_of_mem hid
  obtain rfl := Element.parameter.inj (Option.some.inj (hp.symm.trans hp'))
  exact ⟨e, ids, kind, request, found, he, hids, hid, hmatched, m, hm, hhost, hoverloads⟩

/-- A type parameter stands in the list of the foremost declaration of its owner. -/
theorem Complete.exists_host (h : c.Complete b) {p : TypeParameterElement}
    (hp : b.get? id = some (.typeParameter p)) :
    ∃ e decl, b.get? p.owner = some e ∧ e.host? = some decl ∧
      p.host ∈ c.host.typeParameters decl := by
  obtain ⟨index, constructors, functions, -, hst⟩ := h.stage
  rcases hst.accounted hp with ⟨howner, hmem⟩ | ⟨f, hf, hid⟩
  · obtain ⟨e, he, -, hforms, -⟩ := h.container
    exact ⟨e, _, howner ▸ he, by rw [Element.host?, hforms]; rfl, hmem⟩
  · obtain ⟨decl, descriptors, hhost, -, hlines⟩ := h.typeParameters hf rfl
    obtain ⟨e, he, hget⟩ := hlines.exists_of_mem hid
    obtain ⟨⟨param, descriptor⟩, hx, rfl⟩ := List.mem_map.mp he
    have heq := Element.typeParameter.inj (Option.some.inj (hp.symm.trans hget))
    exact ⟨_, decl, hf, hhost, heq ▸ (List.of_mem_zip hx).1⟩

/-- What lists a parameter that is neither implicit nor claimed is a sibling. -/
theorem Complete.mem_overloads_of_parameter (h : c.Complete b) {parent d : DeclId}
    (hparent : b.claims.find? parent = some id) (he : b.get? id = some e)
    (hids : e.parameters? = some ids) (hd : d ∈ c.host.parameters parent)
    (hfree : b.claims.find? d = none)
    (himplicit : Resolver.isImplicitParameter c.host parent d (some e) = false) :
    parent ∈ e.overloads := by
  obtain ⟨index, constructors, functions, hindex, hst⟩ := h.stage
  obtain ⟨kind, request, found, hmatched⟩ := hst.matched hindex he hids
  obtain ⟨e', he', hforms⟩ := hst.sound.claimed.mp hparent
  obtain rfl := Option.some.inj (he.symm.trans he')
  rw [hmatched.hostForms] at hforms
  rcases List.mem_cons.mp hforms with rfl | hforms
  · obtain ⟨m, hm, rfl⟩ := hmatched.exists_of_not_isImplicit hids hd himplicit
    obtain ⟨j, hj⟩ := hmatched.claimed hst.sound hm List.mem_cons_self
    rw [hfree] at hj
    cases hj
  · exact hmatched.overloads ▸ hforms

/-- What lists a type parameter that is not claimed is a sibling. -/
theorem Complete.mem_overloads_of_typeParameter (h : c.Complete b) {parent d : DeclId}
    (hparent : b.claims.find? parent = some id) (he : b.get? id = some e)
    (hids : e.typeParameters? = some ids) (hd : d ∈ c.host.typeParameters parent)
    (hfree : b.claims.find? d = none) : parent ∈ e.overloads := by
  obtain ⟨index, constructors, functions, -, hst⟩ := h.stage
  have hne : e.host? ≠ some parent := by
    obtain ⟨decl, descriptors, hhost, hlength, hlines⟩ := h.typeParameters he hids
    intro hhost'
    obtain rfl := Option.some.inj (hhost.symm.trans hhost')
    obtain ⟨j, hj⟩ := claimed_of_typeParameterElements hst.sound hlines hlength hd
    rw [hfree] at hj
    cases hj
  obtain ⟨e', he', hforms⟩ := hst.sound.claimed.mp hparent
  obtain rfl := Option.some.inj (he.symm.trans he')
  cases e with
  | type t => exact absurd (congrArg some (List.mem_singleton.mp hforms).symm) hne
  | function f =>
    rcases List.mem_cons.mp hforms with rfl | hforms
    · exact absurd rfl hne
    · exact hforms
  | _ => cases hids

/-- All parameters of the sibling of a constructor are claimed, for none is implicit. -/
theorem Complete.claimed_of_constructor (h : c.Complete b) {f : ConstructorElement}
    (he : b.get? id = some (.constructor f)) {sibling d : DeclId} (hs : sibling ∈ f.overloads)
    (hd : d ∈ c.host.parameters sibling) : ∃ j, b.claims.find? d = some j := by
  obtain ⟨index, constructors, functions, hindex, hst⟩ := h.stage
  obtain ⟨kind, request, found, hmatched⟩ := hst.matched hindex he rfl
  have hs' : sibling ∈ found.overloads := hmatched.overloads ▸ hs
  obtain ⟨-, hsibling⟩ := hmatched.fits.mem_overloads.mp hs'
  obtain ⟨x, hx, hkey⟩ := List.mem_map.mp (hsibling.known (List.mem_map_of_mem hd))
  obtain ⟨m, hm, rfl⟩ := hmatched.exists_of_not_isImplicit rfl hx rfl
  obtain ⟨hname, htype⟩ := Prod.mk.inj hkey
  refine hmatched.claimed_of_sameAs hst.sound hs hd hm ?_
  simp only [HostParameter.sameAs, Bool.and_eq_true, decide_eq_true_eq]
  exact ⟨hname, htype⟩

/-- The foremost declaration of an element is none of the siblings. -/
theorem Complete.host_not_mem_overloads (h : c.Complete b) (he : b.get? id = some e) {d : DeclId}
    (hd : e.host? = some d) : d ∉ e.overloads := by
  obtain ⟨index, constructors, functions, hindex, hst⟩ := h.stage
  intro hmem
  have hids : ∃ ids, e.parameters? = some ids := by
    cases e <;> first | exact ⟨_, rfl⟩ | cases hmem
  obtain ⟨ids, hids⟩ := hids
  obtain ⟨kind, request, found, hmatched⟩ := hst.matched hindex he hids
  rw [hmatched.overloads] at hmem
  rw [Element.host?, hmatched.hostForms] at hd
  exact hmatched.fits.overload_ne hmem (Option.some.inj hd).symm

/-- The declarations that an element stands for are of a kind that it may stand for. -/
theorem Complete.admits (h : c.Complete b) (linked : c.host.Linked)
    (hcontainer : (c.host.kind c.decl).isType) (he : b.get? id = some e) {d : DeclId}
    (hd : d ∈ e.hostForms) : e.admits (c.host.kind d) := by
  obtain ⟨index, constructors, functions, hindex, hst⟩ := h.stage
  have hacc := hst.accounted he
  have container (hc : e.isContainer) : (c.host.kind d).isType := by
    obtain ⟨e', he', -, hforms, -⟩ := h.container
    obtain rfl := hacc.eq_owner hc
    obtain rfl := Option.some.inj (he.symm.trans he')
    exact List.mem_singleton.mp (hforms ▸ hd) ▸ hcontainer
  cases e with
  | function f =>
    obtain ⟨x, -, found, hmade⟩ := hacc
    exact (List.mem_filter.mp (hmade.mem_members hd)).2
  | constructor f =>
    obtain ⟨x, -, found, hmade⟩ := hacc
    exact (List.mem_filter.mp (hmade.mem_members hd)).2
  | property p => exact (hacc.hosts hd).2
  | enumEntry p => exact (hacc.hosts hd).2
  | type t => exact container rfl
  | fileFacade t => exact container rfl
  | parameter p =>
    obtain ⟨_, _, _, _, found, -, -, -, hmatched, m, hm, hhost, hoverloads⟩ :=
      hst.exists_matched hindex he
    rcases List.mem_cons.mp hd with rfl | hd
    · exact decide_eq_true (linked.parameter (hhost ▸ hmatched.fits.host_parameter_mem hm)).2
    · obtain ⟨s, -, hmem, -⟩ := hmatched.fits.same hm (hoverloads ▸ hd)
      exact decide_eq_true (linked.parameter hmem).2
  | typeParameter p =>
    obtain ⟨_, decl, -, -, hmem⟩ := h.exists_host he
    obtain rfl := List.mem_singleton.mp hd
    exact decide_eq_true (linked.typeParameter hmem).2
  | package p => exact hacc.elim
  | implicit p => exact hacc.elim

/-- Implicit declarations are in no batch. -/
theorem Complete.ne_implicit (h : c.Complete b) (he : b.get? id = some e) (x : ImplicitElement) :
    e ≠ .implicit x := by
  rintro rfl
  obtain ⟨index, constructors, functions, -, hst⟩ := h.stage
  exact hst.accounted he

theorem Complete.eq_parameter (h : c.Complete b) (linked : c.host.Linked)
    (hcontainer : (c.host.kind c.decl).isType) (he : b.get? id = some e) {d : DeclId}
    (hd : d ∈ e.hostForms) (hk : c.host.kind d = .parameter) : ∃ p, e = .parameter p := by
  have hadmits := h.admits linked hcontainer he hd
  rw [hk] at hadmits
  cases e with
  | parameter p => exact ⟨p, rfl⟩
  | implicit x => exact absurd rfl (h.ne_implicit he x)
  | _ => cases hadmits

theorem Complete.eq_typeParameter (h : c.Complete b) (linked : c.host.Linked)
    (hcontainer : (c.host.kind c.decl).isType) (he : b.get? id = some e) {d : DeclId}
    (hd : d ∈ e.hostForms) (hk : c.host.kind d = .typeParameter) : ∃ p, e = .typeParameter p := by
  have hadmits := h.admits linked hcontainer he hd
  rw [hk] at hadmits
  cases e with
  | typeParameter p => exact ⟨p, rfl⟩
  | implicit x => exact absurd rfl (h.ne_implicit he x)
  | _ => cases hadmits

end Container

end Correspondence
