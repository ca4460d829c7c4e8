import Correspondence.Proofs.Matched
import Correspondence.Proofs.Stability

/-!
# Positions of parameters

The compiled parameters of a function or constructor are its receiver, its value parameters in their
order, and its continuation. So the position of a compiled parameter says what it is resolved to.
-/

namespace Correspondence

namespace Container

variable {c : Container} {index : DescriptorIndex} {b : Batch} {id : ElementId} {e : Element}
  {ids : List ElementId} {kind : DeclKind} {request : MatchRequest} {found : MemberMatch}

theorem Matched.length_eq (h : c.Matched index b id e ids kind request found) :
    ids.length = request.parameters.length := by
  have hlines := List.Forall₂.length_eq h.parameters
  have hnames := congrArg List.length h.fits.names
  simp only [List.length_map] at hnames
  simpa [parameterElements, hnames] using hlines

theorem Matched.count (h : c.Matched index b id e ids kind request found) :
    (c.host.parameters found.host).length =
      e.implicitLeading + ids.length + e.implicitTrailing := by
  rw [h.implicitLeading, h.implicitTrailing, h.length_eq]
  exact h.fits.count

/-- The value parameters stand after the implicit leading ones, in their order. -/
theorem Matched.exists_of_getElem? (h : c.Matched index b id e ids kind request found) {i : Nat}
    {j : ElementId} (hj : ids[i]? = some j) :
    ∃ x, b.get? j = some (.parameter x) ∧ x.name = c.host.simpleName x.host ∧
      (c.host.parameters found.host)[e.implicitLeading + i]? = some x.host := by
  obtain ⟨e', he', hget⟩ := h.parameters.exists_of_getElem? hj
  simp only [parameterElements, List.getElem?_map, List.getElem?_zipIdx] at he'
  obtain ⟨_, hx, rfl⟩ := Option.map_eq_some_iff.mp he'
  obtain ⟨⟨m, param⟩, hzip, rfl⟩ := Option.map_eq_some_iff.mp hx
  obtain ⟨hm, hparam⟩ := List.getElem?_zip_eq_some.mp hzip
  refine ⟨_, hget, ?_, ?_⟩
  · have hname := congrArg (·[i]?) h.fits.names
    simp only [List.getElem?_map, hm, hparam, Option.map_some] at hname
    exact (Option.some.inj hname).symm
  · have hhost := congrArg (·[i]?) h.fits.hosts
    have hi : i < request.parameters.length := (List.getElem?_eq_some_iff.mp hparam).1
    simp only [List.getElem?_map, hm, Option.map_some, List.getElem?_take, if_pos hi,
      List.getElem?_drop] at hhost
    rw [h.implicitLeading]
    exact hhost.symm

/-- A batch claims a declaration for one element only. -/
private theorem eq_of_mem_hostForms (hb : b.Sound c.host c.decl) {id' : ElementId} {e' : Element}
    (he : b.get? id = some e) (he' : b.get? id' = some e') {d : DeclId} (hd : d ∈ e.hostForms)
    (hd' : d ∈ e'.hostForms) : id = id' :=
  Option.some.inj
    ((hb.claimed.mpr ⟨e, he, hd⟩).symm.trans (hb.claimed.mpr ⟨e', he', hd'⟩))

/-- Where the compiled parameters of a function or constructor of a batch stand. -/
structure Positioned (c : Container) (b : Batch) (e : Element) (ids : List ElementId)
    (decl : DeclId) : Prop where
  count : (c.host.parameters decl).length = e.implicitLeading + ids.length + e.implicitTrailing
  value {i : Nat} {j : ElementId} : ids[i]? = some j →
    ∃ x, b.get? j = some (.parameter x) ∧ x.name = c.host.simpleName x.host ∧
      (c.host.parameters decl)[e.implicitLeading + i]? = some x.host
  /-- The batch claims no implicit parameter. -/
  unclaimed {i : Nat} {d : DeclId} : (c.host.parameters decl)[i]? = some d →
    i < e.implicitLeading ∨ e.implicitLeading + ids.length ≤ i → b.claims.find? d = none

theorem Complete.positioned (h : c.Complete b) (linked : c.host.Linked)
    (hcontainer : (c.host.kind c.decl).isType) (he : b.get? id = some e)
    (hids : e.parameters? = some ids) {decl : DeclId} (hdecl : e.host? = some decl) :
    c.Positioned b e ids decl := by
  obtain ⟨index, constructors, functions, hindex, hst⟩ := h.stage
  obtain ⟨kind, request, found, hmatched⟩ := hst.matched hindex he hids
  have hhost : e.host? = some found.host := by
    rw [Element.host?, hmatched.hostForms]
    rfl
  obtain rfl := Option.some.inj (hdecl.symm.trans hhost)
  have howner : found.host ∈ e.hostForms := List.mem_of_mem_head? hdecl
  refine ⟨hmatched.count, hmatched.exists_of_getElem?, fun {i d} hd hi => ?_⟩
  obtain ⟨hencl, hk⟩ := linked.parameter (List.mem_of_getElem? hd)
  by_contra hclaim
  obtain ⟨j, hj⟩ := Option.ne_none_iff_exists'.mp hclaim
  obtain ⟨e', he', hmem⟩ := hst.sound.claimed.mp hj
  obtain ⟨x, rfl⟩ := h.eq_parameter linked hcontainer he' hmem hk
  obtain ⟨o, ids', kind', request', found', ho, hids', hjids, hmatched', m, hm, hmhost,
    hmoverloads⟩ := hst.exists_matched hindex he'
  rcases List.mem_cons.mp hmem with rfl | hmem
  · -- What lists the parameter has the same foremost declaration, so this is a value's position.
    have hfound : found'.host = found.host := by
      have := (linked.parameter (hmhost ▸ hmatched'.fits.host_parameter_mem hm)).1
      exact Option.some.inj (this.symm.trans hencl)
    have hmem' : found.host ∈ o.hostForms := by
      rw [hmatched'.hostForms, ← hfound]
      exact List.mem_cons_self
    obtain rfl := eq_of_mem_hostForms hst.sound he ho howner hmem'
    obtain rfl := Option.some.inj (he.symm.trans ho)
    obtain rfl := Option.some.inj (hids.symm.trans hids')
    obtain ⟨k, hk⟩ := List.mem_iff_getElem?.mp hjids
    obtain ⟨x', hx', -, hposition⟩ := hmatched.exists_of_getElem? hk
    obtain rfl := Element.parameter.inj (Option.some.inj (he'.symm.trans hx'))
    have hsame : i = e.implicitLeading + k :=
      (List.getElem?_inj (List.getElem?_eq_some_iff.mp hd).1
        (linked.parameters_nodup found.host)).mp (hd.trans hposition.symm)
    have hklt : k < ids.length := (List.getElem?_eq_some_iff.mp hk).1
    omega
  · -- Otherwise the foremost declaration would be a sibling of what lists the parameter.
    obtain ⟨s, hs, hds, -⟩ := hmatched'.fits.same hm (hmoverloads ▸ hmem)
    obtain rfl := Option.some.inj (hencl.symm.trans (linked.parameter hds).1)
    have hmem' : found.host ∈ o.hostForms := by
      rw [hmatched'.hostForms]
      exact List.mem_cons_of_mem _ hs
    obtain rfl := eq_of_mem_hostForms hst.sound he ho howner hmem'
    obtain rfl := Option.some.inj (he.symm.trans ho)
    exact h.host_not_mem_overloads he hhost (hmatched'.overloads ▸ hs)

/-- A parameter before or after the value parameters is an implicit one. -/
theorem Positioned.isImplicitParameter {decl : DeclId} (h : c.Positioned b e ids decl)
    (linked : c.host.Linked) (hids : e.parameters? = some ids) {i : Nat} {d : DeclId}
    (hd : (c.host.parameters decl)[i]? = some d)
    (hi : i < e.implicitLeading ∨ e.implicitLeading + ids.length ≤ i) :
    Resolver.isImplicitParameter c.host decl d (some e) = true := by
  rw [isImplicitParameter_eq _ _ _ hids]
  have hposition := idxOf?_eq_some_of_nodup (linked.parameters_nodup decl) hd
  have hcount := h.count
  simp only [hposition, Option.any_some, Bool.or_eq_true, decide_eq_true_eq]
  omega

/-- A constructor has no type parameters. -/
theorem Complete.typeParameters_eq_nil (h : c.Complete b) (he : b.get? id = some e)
    (hids : e.parameters? = some ids) (htypes : e.typeParameters? = none) {decl : DeclId}
    (hdecl : e.host? = some decl) : c.host.typeParameters decl = [] := by
  obtain ⟨index, constructors, functions, -, hst⟩ := h.stage
  have hacc := hst.accounted he
  cases e with
  | constructor f =>
    obtain ⟨x, -, found, hmade⟩ := hacc
    rw [hmade.eq] at hdecl
    obtain rfl : found.host = decl := Option.some.inj hdecl
    exact hmade.typeParameters
  | function f => cases htypes
  | _ => cases hids

end Container

namespace Resolver

variable {r : Resolver} {c : Cache} {id : ElementId} {e : Element} {ids : List ElementId}

/-- Where the compiled parameters and type parameters of a function or constructor belong. -/
structure Placed (r : Resolver) (c : Cache) (id : ElementId) (e : Element) (ids : List ElementId)
    (decl : DeclId) : Prop where
  count : (r.host.parameters decl).length = e.implicitLeading + ids.length + e.implicitTrailing
  /-- The value parameters stand after the implicit leading ones, in their order. -/
  value {i : Nat} {j : ElementId} : ids[i]? = some j → ∃ d x,
    (r.host.parameters decl)[e.implicitLeading + i]? = some d ∧
      r.resolve d c = .ok (some j) c ∧ c.element? j = some (.parameter x) ∧
      x.name = r.host.simpleName d
  /-- Any other parameter is implicit. -/
  implicit {i : Nat} {d : DeclId} : (r.host.parameters decl)[i]? = some d →
    i < e.implicitLeading ∨ e.implicitLeading + ids.length ≤ i →
    ∃ j c', r.resolve d c = .ok (some j) c' ∧ c'.element? j = some (.implicit
      { host := d, kind := .syntheticParameter, name := r.host.simpleName d, owner := some id })
  typeParameters {types : List ElementId} : e.typeParameters? = some types →
    List.Forall₂ (fun d j => r.resolve d c = .ok (some j) c ∧
      ∃ x, c.element? j = some (.typeParameter x) ∧ x.name = r.host.simpleName d)
      (r.host.typeParameters decl) types
  noTypeParameters : e.typeParameters? = none → r.host.typeParameters decl = []

/-- A parameter before or after the value parameters was made by the source compiler. -/
theorem origin_of_positioned (linked : r.host.Linked) (acyclic : r.host.Acyclic)
    {container : DeclId} {b : Batch} (hb : r.batch? container = some b) {decl d : DeclId}
    (h : (r.containerOf container).Positioned b e ids decl) (he : b.get? id = some e)
    (hids : e.parameters? = some ids) (hdecl : e.host? = some decl) {i : Nat}
    (hd : (r.host.parameters decl)[i]? = some d)
    (hi : i < e.implicitLeading ∨ e.implicitLeading + ids.length ≤ i) :
    r.origin d = .ok (some (.implicitIn (.staged container id) d .syntheticParameter)) := by
  have horigin := origin_of_claimed linked acyclic hb
    ((sound_of_batch? linked hb).claimed.mpr ⟨e, he, List.mem_of_mem_head? hdecl⟩)
  have hclaimed : r.claimed? d (.staged container id) = none := by
    simp [claimed?, batchOf?, hb, h.unclaimed hd hi]
  have himplicit : isImplicitParameter r.host decl d (some e) = true :=
    h.isImplicitParameter linked hids hd hi
  rw [origin_of_parameter linked acyclic (List.mem_of_getElem? hd) horigin
    Origin.staged_ne_package hclaimed]
  simp only [unclaimedParameter, element?, hb, Option.bind_some, he, himplicit, if_true]
  rfl

/-- The parameters of a function or constructor of a batch that is in the cache. -/
private theorem placed_of_places (linked : r.host.Linked) (acyclic : r.host.Acyclic)
    (h : r.Faithful c) {container : DeclId} {b : Batch} (hb : r.batch? container = some b) {n : Nat}
    (hplaces : c.Places b n) (he : b.get? id = some e) (hids : e.parameters? = some ids)
    {decl : DeclId} (hdecl : e.host? = some decl) :
    r.Placed c (id.shift n) (e.mapIds (.shift n)) (ids.map (.shift n)) decl := by
  obtain ⟨hcontainer, -, hcomplete⟩ := batch?_eq_some linked hb
  have hpositioned := hcomplete.positioned linked hcontainer he hids hdecl
  have resolves {d : DeclId} {j : ElementId} {e' : Element} (he' : b.get? j = some e')
      (hd : d ∈ e'.hostForms) : r.resolve d c = .ok (some (j.shift n)) c :=
    resolve_of_places linked acyclic hplaces hb he' hd
  constructor
  case count =>
    rw [List.length_map, Element.implicitLeading_mapIds, Element.implicitTrailing_mapIds]
    exact hpositioned.count
  case value =>
    intro i j hj
    rw [List.getElem?_map] at hj
    obtain ⟨j₀, hj₀, rfl⟩ := Option.map_eq_some_iff.mp hj
    obtain ⟨x, hx, hname, hposition⟩ := hpositioned.value hj₀
    rw [Element.implicitLeading_mapIds]
    exact ⟨x.host, _, hposition, resolves hx List.mem_cons_self, hplaces.element hx, hname⟩
  case implicit =>
    intro i d hd hi
    rw [List.length_map, Element.implicitLeading_mapIds] at hi
    have horigin := origin_of_positioned linked acyclic hb hpositioned he hids hdecl hd hi
    obtain ⟨j, c', hresolve, -, -, hel⟩ := resolve_of_implicitIn linked acyclic h horigin
      ⟨b, n, hb, hplaces, rfl, e, he⟩
    exact ⟨j, c', hresolve, hel⟩
  case typeParameters =>
    intro types htypes
    rw [Element.typeParameters?_mapIds] at htypes
    obtain ⟨types₀, htypes₀, rfl⟩ := Option.map_eq_some_iff.mp htypes
    obtain ⟨decl', descriptors, hdecl', hlength, hlines⟩ := hcomplete.typeParameters he htypes₀
    obtain rfl := Option.some.inj (hdecl.symm.trans hdecl')
    have hall := Batch.linesUp_map_iff.mp hlines
    have hfst : ((r.host.typeParameters decl).zip descriptors).map Prod.fst =
      r.host.typeParameters decl := List.map_fst_zip hlength.le
    rw [← hfst, List.forall₂_map_left_iff, List.forall₂_map_right_iff]
    exact hall.imp fun x j hj =>
      ⟨resolves hj (List.mem_singleton_self x.1), _, hplaces.element hj, rfl⟩
  case noTypeParameters =>
    intro htypes
    rw [Element.typeParameters?_mapIds, Option.map_eq_none_iff] at htypes
    exact hcomplete.typeParameters_eq_nil he hids htypes hdecl

theorem Faithful.placed (h : r.Faithful c) (linked : r.host.Linked) (acyclic : r.host.Acyclic)
    (he : c.element? id = some e) (hids : e.parameters? = some ids) {decl : DeclId}
    (hdecl : e.host? = some decl) : r.Placed c id e ids decl := by
  obtain ⟨o, ho⟩ := h.held he
  cases o with
  | package =>
    obtain rfl := Option.some.inj (he.symm.trans ho)
    cases hids
  | staged container place =>
    obtain ⟨b, n, hb, hplaces, rfl, e₀, he₀⟩ := ho
    obtain rfl := Option.some.inj (he.symm.trans (hplaces.element he₀))
    rw [Element.parameters?_mapIds] at hids
    obtain ⟨ids₀, hids₀, rfl⟩ := Option.map_eq_some_iff.mp hids
    rw [Element.host?, Element.hostForms_mapIds] at hdecl
    exact placed_of_places linked acyclic h hb hplaces he₀ hids₀ hdecl
  | implicit =>
    obtain rfl := Option.some.inj (he.symm.trans ho)
    cases hids
  | implicitIn =>
    obtain ⟨owner, -, -, hel⟩ := ho
    obtain rfl := Option.some.inj (he.symm.trans hel)
    cases hids

/-- In every cache that operations lead to, the compiled parameters of a function or constructor are
the receiver of an extension, the value parameters, each of which is resolved to the one listed at
its position, and the continuation of a suspending function; the type parameters are those that a
function lists, and a constructor has none. -/
theorem placed_runAll {t : DeclTree} (built : t.Built) (acyclic : t.toHost.Acyclic)
    (config : Config) (ops : List Operation) :
    let r : Resolver := ⟨t.toHost, config⟩
    let c := r.runAll ops
    ∀ id e ids decl, c.element? id = some e → e.parameters? = some ids → e.host? = some decl →
      r.Placed c id e ids decl := by
  intro r c id e ids decl he hids hdecl
  have linked : r.host.Linked := built.linked.toHost
  exact (faithful_runAll linked acyclic ops).placed linked acyclic he hids hdecl

end Resolver

/-- The metadata of a class with an extension function `f(x)` that may suspend and has a type parameter. -/
def ClassMetadata.pausing : ClassMetadata where
  strings := .ofList ["p/C", "f", "x", "kotlin/Int", "kotlin/Unit", "T", "kotlin/Long"]
  descriptor :=
    { qualifiedName := ⟨0⟩, kind := .regular
      functions := [
        { name := ⟨1⟩, flags := .single .suspending, typeParameters := [{ id := 0, name := ⟨5⟩ }]
          receiver := some (.named ⟨6⟩), valueParameters := [{ name := ⟨2⟩, type := .named ⟨3⟩ }]
          returnType := .named ⟨4⟩ }] }

/-- The class with the function that may suspend. -/
def DeclTree.pausing : DeclTree :=
  let t := ({} : DeclTree).addPackage "p"
  let t := t.addType ⟨0⟩ .classType "C"
  let t := t.addMethod ⟨1⟩ "f" (.object "java/lang/Object")
  let t := t.addParameter ⟨2⟩ "$this" .long
  let t := t.addParameter ⟨2⟩ "x" .int
  let t := t.addParameter ⟨2⟩ "$next" (.object "kotlin/coroutines/Continuation")
  let t := t.addTypeParameter ⟨2⟩ "T"
  t.attach ⟨1⟩ (.ofClass .pausing)

namespace Resolver

/-- The resolver for the class with the function that may suspend. -/
def ofPausing : Resolver :=
  ⟨DeclTree.pausing.toHost, {}⟩

set_option maxRecDepth 20000 in
private theorem element?_pausing :
    (ofPausing.runAll [.resolve ⟨1⟩]).element? ⟨1⟩ = some (.function
      { host := ⟨2⟩, overloads := [], owner := ⟨0⟩, name := "f"
        signature := "f(JILkotlin/coroutines/Continuation;)Ljava/lang/Object;", modality := .final
        visibility := .everyone, flags := .single .suspending, isExtension := true, parameters := [⟨2⟩]
        typeParameters := [⟨3⟩] }) := by
  cbv

/-- The parameter between the receiver and the continuation is resolved to the value parameter. These two
are implicit. -/
theorem placed_pausing :
    let c := ofPausing.runAll [.resolve ⟨1⟩]
    ofPausing.resolve ⟨4⟩ c = .ok (some ⟨2⟩) c ∧ ofPausing.resolve ⟨6⟩ c = .ok (some ⟨3⟩) c ∧
      (∃ j c', ofPausing.resolve ⟨3⟩ c = .ok (some j) c' ∧ c'.element? j = some (.implicit
        { host := ⟨3⟩, kind := .syntheticParameter, name := "$this", owner := some ⟨1⟩ })) ∧
      ∃ j c', ofPausing.resolve ⟨5⟩ c = .ok (some j) c' ∧ c'.element? j = some (.implicit
        { host := ⟨5⟩, kind := .syntheticParameter, name := "$next", owner := some ⟨1⟩ }) := by
  intro c
  have hbuilt : DeclTree.pausing.Built := by
    apply DeclTree.Built.attach
    iterate 7 apply DeclTree.Built.add
    exact .empty
  have hplaced := placed_runAll hbuilt (DeclTree.acyclic_of_isAscending rfl) {} [.resolve ⟨1⟩] ⟨1⟩ _
    [⟨2⟩] ⟨2⟩ element?_pausing rfl rfl
  obtain ⟨d, x, hd, hvalue, -⟩ := hplaced.value (i := 0) rfl
  obtain rfl : ⟨4⟩ = d := Option.some.inj hd
  obtain ⟨⟨htype, -⟩, -⟩ := List.forall₂_cons.mp (hplaced.typeParameters rfl)
  exact ⟨hvalue, htype, hplaced.implicit (i := 0) rfl (.inl (by decide)),
    hplaced.implicit (i := 2) rfl (.inr (by decide))⟩

end Resolver

end Correspondence
