import Correspondence.Proofs.Arising
import Correspondence.Proofs.Runs

/-!
# From an element back to the declaration

An element stands for the declaration that is resolved to it, unless a sibling encloses the
declaration and the element knows it by its name only.
-/

namespace Correspondence

/-- Whether every declaration stands in a list of what encloses it. -/
def Host.Listed (host : Host) : Prop :=
  ∀ d owner, host.enclosing d = some owner →
    d ∈ host.enclosed owner ∨ d ∈ host.parameters owner ∨ d ∈ host.typeParameters owner

/-- Whether every declaration of a tree stands in a list of what encloses it. -/
def DeclTree.isListed (t : DeclTree) : Bool :=
  t.decls.toList.zipIdx.all fun (d, i) => d.enclosing.all fun owner =>
    (t.get? owner).any fun o => ⟨i⟩ ∈ o.enclosed ++ o.parameters ++ o.typeParameters

theorem DeclTree.listed_of_isListed {t : DeclTree} (h : t.isListed) : t.toHost.Listed := by
  intro d owner howner
  obtain ⟨decl, hdecl, howner⟩ := Option.bind_eq_some_iff.mp howner
  have hmem : (decl, d.index) ∈ t.decls.toList.zipIdx := by
    rw [List.mem_zipIdx_iff_getElem?, Array.getElem?_toList]
    exact hdecl
  have hall := List.all_eq_true.mp h _ hmem
  simp only [howner, Option.all_some, Option.any_eq_true, decide_eq_true_eq] at hall
  obtain ⟨o, ho, hd⟩ := hall
  simpa [DeclTree.toHost, ho, or_assoc] using hd

/-- Whether an element that stands for a sibling knows a declaration of that sibling by its name
only: a type parameter, or a parameter without the name and type of a value parameter. -/
def Element.KnowsByName (host : Host) (elementOf : ElementId → Option Element) (e : Element)
    (sibling d : DeclId) : Prop :=
  sibling ∈ e.overloads ∧
    (host.kind d = .typeParameter ∨
      host.kind d = .parameter ∧ Resolver.isImplicitParameter host sibling d (some e) = false ∧
        ∀ j ∈ e.parameters?.getD [], ∀ p, elementOf j = some (.parameter p) →
          (host.hostParameter p.host).sameAs (host.hostParameter d) = false)

/-- Whether the element of what encloses a declaration knows the declaration by its name only. -/
def Host.KnowsByName (host : Host) (idOf : DeclId → Option ElementId)
    (elementOf : ElementId → Option Element) (d : DeclId) : Prop :=
  ∃ sibling owner e, host.enclosing d = some sibling ∧ idOf sibling = some owner ∧
    elementOf owner = some e ∧ e.KnowsByName host elementOf sibling d

namespace Host

variable {host : Host} {d owner : DeclId}

theorem Listed.mem_parameters (listed : host.Listed) (linked : host.Linked)
    (howner : host.enclosing d = some owner) (hk : host.kind d = .parameter) :
    d ∈ host.parameters owner := by
  rcases listed d owner howner with hd | hd | hd
  · exact absurd hk (linked.member hd).2.1
  · exact hd
  · rw [(linked.typeParameter hd).2] at hk
    cases hk

theorem Listed.mem_typeParameters (listed : host.Listed) (linked : host.Linked)
    (howner : host.enclosing d = some owner) (hk : host.kind d = .typeParameter) :
    d ∈ host.typeParameters owner := by
  rcases listed d owner howner with hd | hd | hd
  · exact absurd hk (linked.member hd).2.2
  · rw [(linked.parameter hd).2] at hk
    cases hk
  · exact hd

theorem KnowsByName.kind {idOf : DeclId → Option ElementId}
    {elementOf : ElementId → Option Element} (h : host.KnowsByName idOf elementOf d) :
    host.kind d = .parameter ∨ host.kind d = .typeParameter := by
  obtain ⟨_, _, _, -, -, -, -, hk | ⟨hk, -⟩⟩ := h
  · exact .inr hk
  · exact .inl hk

end Host

private theorem mapIds_eq_parameter {f : ElementId → ElementId} {e : Element} {p : ParameterElement}
    (h : e.mapIds f = .parameter p) : ∃ p', e = .parameter p' ∧ p'.host = p.host := by
  cases e with
  | parameter p' =>
    obtain rfl := Element.parameter.inj h
    exact ⟨p', rfl, rfl⟩
  | _ => cases h

/-- What an element knows by name does not depend on the numbers. -/
private theorem knowsByName_mapIds {host : Host} {c : Cache} {b : Batch} {n : Nat}
    (hplaces : c.Places b n) {e : Element}
    (hids : ∀ j ∈ e.parameters?.getD [], ∃ e', b.get? j = some e') {sibling d : DeclId} :
    (e.mapIds (.shift n)).KnowsByName host c.element? sibling d ↔
      e.KnowsByName host b.get? sibling d := by
  unfold Element.KnowsByName
  rw [Element.overloads_mapIds, Resolver.isImplicitParameter_mapIds,
    Element.getD_parameters?_mapIds, List.forall_mem_map]
  refine and_congr_right' (or_congr_right (and_congr_right' (and_congr_right' ?_)))
  refine forall₂_congr fun j hj => ⟨fun h p hp => ?_, fun h p hp => ?_⟩
  · exact h { p with owner := p.owner.shift n } (hplaces.element hp)
  · obtain ⟨e', he'⟩ := hids j hj
    rw [hplaces.element he'] at hp
    obtain ⟨p', rfl, hhost⟩ := mapIds_eq_parameter (Option.some.inj hp)
    exact hhost ▸ h p' he'

/-- What is known by name in a batch is so in the cache. -/
private theorem knowsByName_iff_of_places {host : Host} {container : DeclId} {c : Cache} {b : Batch}
    {n : Nat} (hplaces : c.Places b n) (hsound : b.Sound host container) {sibling d : DeclId}
    (hsibling : host.enclosing d = some sibling) {j : ElementId}
    (hj : b.claims.find? sibling = some j) :
    host.KnowsByName c.get? c.element? d ↔ host.KnowsByName b.claims.find? b.get? d := by
  obtain ⟨e, he, -⟩ := hsound.claimed.mp hj
  have hids : ∀ j ∈ e.parameters?.getD [], ∃ e', b.get? j = some e' := fun i hi =>
    hsound.closed he (Element.mem_references_of_mem_parameters hi)
  simp [Host.KnowsByName, hsibling, hplaces.claim hj, hplaces.element he, hj, he,
    knowsByName_mapIds hplaces hids]

namespace Container

variable {c : Container} {b : Batch}

/-- What is claimed is not only known by name. -/
theorem Complete.not_knowsByName (h : c.Complete b) (linked : c.host.Linked)
    (hcontainer : (c.host.kind c.decl).isType) {d : DeclId} {place : ElementId}
    (hd : b.claims.find? d = some place) : ¬ c.host.KnowsByName b.claims.find? b.get? d := by
  rintro ⟨sibling, i, e, hsibling, hi, he, hoverload, hby⟩
  obtain ⟨index, constructors, functions, hindex, hst⟩ := h.stage
  obtain ⟨e₀, he₀, hforms⟩ := hst.sound.claimed.mp hd
  -- One element only stands for the sibling.
  have unique {j : ElementId} {e' : Element} (he' : b.get? j = some e')
      (hmem : sibling ∈ e'.hostForms) : e' = e := by
    have hj := hst.sound.claimed.mpr ⟨e', he', hmem⟩
    obtain rfl := Option.some.inj (hi.symm.trans hj)
    exact Option.some.inj (he'.symm.trans he)
  rcases hby with hk | ⟨hk, -, hnone⟩
  · obtain ⟨p, rfl⟩ := h.eq_typeParameter linked hcontainer he₀ hforms hk
    obtain rfl := List.mem_singleton.mp hforms
    obtain ⟨e', decl, he', hhost, hmem⟩ := h.exists_host he₀
    obtain rfl := Option.some.inj ((linked.typeParameter hmem).1.symm.trans hsibling)
    obtain rfl := unique he' (List.mem_of_mem_head? hhost)
    exact h.host_not_mem_overloads he hhost hoverload
  · obtain ⟨p, rfl⟩ := h.eq_parameter linked hcontainer he₀ hforms hk
    obtain ⟨e', ids, kind, request, found, he', hids, hid, hmatched, m, hm, hhost, hoverloads⟩ :=
      hst.exists_matched hindex he₀
    rcases List.mem_cons.mp hforms with hforms | hforms
    · have hmem := hmatched.fits.host_parameter_mem hm
      rw [← hhost, ← hforms] at hmem
      obtain rfl := Option.some.inj ((linked.parameter hmem).1.symm.trans hsibling)
      obtain rfl := unique he' (hmatched.hostForms ▸ List.mem_cons_self)
      exact hmatched.fits.overload_ne (hmatched.overloads ▸ hoverload) rfl
    · obtain ⟨s, hs, hmem, hsame⟩ := hmatched.fits.same hm (hoverloads ▸ hforms)
      obtain rfl := Option.some.inj ((linked.parameter hmem).1.symm.trans hsibling)
      obtain rfl := unique he' (hmatched.hostForms ▸ List.mem_cons_of_mem _ hs)
      have hfalse := hnone place (by rw [hids]; exact hid) p he₀
      rw [hhost] at hfalse
      exact Bool.false_ne_true (hfalse.symm.trans hsame)

variable {d parent : DeclId} {i : ElementId} {e : Element} {ids : List ElementId}

/-- A parameter that is not claimed belongs to a sibling. -/
theorem Complete.knowsByName_of_parameter (h : c.Complete b) (linked : c.host.Linked)
    (listed : c.host.Listed) (hparent : c.host.enclosing d = some parent)
    (hi : b.claims.find? parent = some i) (he : b.get? i = some e) (hids : e.parameters? = some ids)
    (hd : b.claims.find? d = none) (hk : c.host.kind d = .parameter)
    (himplicit : Resolver.isImplicitParameter c.host parent d (some e) = false) :
    c.host.KnowsByName b.claims.find? b.get? d := by
  have hmem := listed.mem_parameters linked hparent hk
  have hsibling := h.mem_overloads_of_parameter hi he hids hmem hd himplicit
  obtain ⟨index, constructors, functions, hindex, hst⟩ := h.stage
  obtain ⟨kind, request, found, hmatched⟩ := hst.matched hindex he hids
  refine ⟨parent, i, e, hparent, hi, he, hsibling, .inr ⟨hk, himplicit, fun j hj p hp => ?_⟩⟩
  rw [hids] at hj
  obtain ⟨p', hp', -, m, hm, hhost, -⟩ := hmatched.exists_of_mem hj
  obtain rfl := Element.parameter.inj (Option.some.inj (hp.symm.trans hp'))
  by_contra hsame
  rw [Bool.not_eq_false, hhost] at hsame
  obtain ⟨j, hclaim⟩ := hmatched.claimed_of_sameAs hst.sound hsibling hmem hm hsame
  rw [hd] at hclaim
  cases hclaim

/-- A type parameter that is not claimed belongs to a sibling. -/
theorem Complete.knowsByName_of_typeParameter (h : c.Complete b) (linked : c.host.Linked)
    (listed : c.host.Listed) (hparent : c.host.enclosing d = some parent)
    (hi : b.claims.find? parent = some i) (he : b.get? i = some e)
    (hids : e.typeParameters? = some ids) (hd : b.claims.find? d = none)
    (hk : c.host.kind d = .typeParameter) : c.host.KnowsByName b.claims.find? b.get? d := by
  have hmem := listed.mem_typeParameters linked hparent hk
  exact ⟨parent, i, e, hparent, hi, he,
    h.mem_overloads_of_typeParameter hi he hids hmem hd, .inl hk⟩

end Container

namespace Resolver

variable {r : Resolver} {c : Cache} {d container : DeclId} {i id : ElementId} {b : Batch}
  {e : Element}

/-- Only parameters and type parameters have an origin in a batch that does not claim them. -/
theorem claim_of_origin (linked : r.host.Linked) (acyclic : r.host.Acyclic)
    (horigin : r.origin d = .ok (some (.staged container i))) (hb : r.batch? container = some b)
    (he : b.get? i = some e) (hparameter : ∀ p, e ≠ .parameter p)
    (htypeParameter : ∀ p, e ≠ .typeParameter p) : b.claims.find? d = some i := by
  obtain ⟨-, -, hcomplete⟩ := batch?_eq_some linked hb
  cases arises_of_origin linked acyclic horigin with
  | claimed hb' hd =>
    obtain rfl := Option.some.inj (hb.symm.trans hb')
    exact hd
  | namedParameter _ _ hb' he' _ _ _ hids hplace =>
    obtain rfl := Option.some.inj (hb.symm.trans hb')
    obtain ⟨p, hp⟩ := hcomplete.exists_parameter he' hids hplace
    exact absurd (Option.some.inj (he.symm.trans hp)) (hparameter p)
  | namedTypeParameter _ _ hb' he' _ _ _ hids hplace =>
    obtain rfl := Option.some.inj (hb.symm.trans hb')
    obtain ⟨p, hp⟩ := hcomplete.exists_typeParameter he' hids hplace
    exact absurd (Option.some.inj (he.symm.trans hp)) (htypeParameter p)

/-- Nothing but its name leads from a sibling to a declaration that is not claimed. -/
private theorem not_mem_of_knowsByName (linked : r.host.Linked) {place : ElementId}
    (hb : r.batch? container = some b) (hholds : Origin.Holds r c (.staged container place) id)
    (hel : c.element? id = some e) {parent : DeclId} (hparent : r.host.enclosing d = some parent)
    (hi : b.claims.find? parent = some i) (hd : b.claims.find? d = none)
    (hknows : r.host.KnowsByName b.claims.find? b.get? d) :
    d ∉ e.hostForms ∧ r.host.KnowsByName c.get? c.element? d := by
  have hsound := sound_of_batch? linked hb
  obtain ⟨n, e', hplaces, rfl, he'⟩ := hholds.exists_places hb
  obtain rfl := Option.some.inj (hel.symm.trans (hplaces.element he'))
  refine ⟨fun hforms => ?_, (knowsByName_iff_of_places hplaces hsound hparent hi).mpr hknows⟩
  rw [Element.hostForms_mapIds] at hforms
  have hclaim := hsound.claimed.mpr ⟨e', he', hforms⟩
  rw [hd] at hclaim
  cases hclaim

/-- What the source compiler made in an element is not known to it by name. -/
private theorem not_knowsByName_of_implicitIn (linked : r.host.Linked) (h : r.Faithful c)
    {parent : DeclId} {owner : Origin} (hparent : r.host.enclosing d = some parent)
    (howner : r.origin parent = .ok (some owner))
    (hparameter : r.host.kind d = .parameter →
      isImplicitParameter r.host parent d (r.element? owner))
    (htypeParameter : r.host.kind d = .typeParameter →
      ∀ e, r.element? owner = some e → e.overloads = []) :
    ¬ r.host.KnowsByName c.get? c.element? d := by
  rintro ⟨sibling, j, e, hsibling, hentry, he, hoverload, hby⟩
  obtain rfl := Option.some.inj (hparent.symm.trans hsibling)
  obtain ⟨o, ho, hholds⟩ := h.entry hentry
  obtain rfl := Option.some.inj (Except.ok.inj (howner.symm.trans ho))
  obtain ⟨e', f, he', hel, -⟩ := hholds.element linked
  obtain rfl := Option.some.inj (he.symm.trans hel)
  rcases hby with hk | ⟨hk, himplicit, -⟩
  · rw [Element.overloads_mapIds, htypeParameter hk e' he'] at hoverload
    cases hoverload
  · rw [isImplicitParameter_mapIds, ← he', hparameter hk] at himplicit
    cases himplicit

/-- What a batch claims is among what its element stands for, and not known by name. -/
private theorem mem_hostForms_of_claimed (linked : r.host.Linked) {place : ElementId}
    (hb : r.batch? container = some b) (hd : b.claims.find? d = some place)
    (hholds : Origin.Holds r c (.staged container place) id) (hel : c.element? id = some e) :
    d ∈ e.hostForms ∧ ¬ r.host.KnowsByName c.get? c.element? d := by
  obtain ⟨hcontainer, -, hcomplete⟩ := batch?_eq_some linked hb
  have hsound := sound_of_batch? linked hb
  obtain ⟨n, e', hplaces, rfl, he'⟩ := hholds.exists_places hb
  obtain rfl := Option.some.inj (hel.symm.trans (hplaces.element he'))
  refine ⟨?_, fun hknows => ?_⟩
  · obtain ⟨e'', he'', hforms⟩ := hsound.claimed.mp hd
    obtain rfl := Option.some.inj (he'.symm.trans he'')
    rwa [Element.hostForms_mapIds]
  · rcases hsound.attached hd with rfl | ⟨owner, howner, ⟨j, hj⟩, -⟩
    · rcases hknows.kind with hk | hk <;> simp [hk, DeclKind.isType] at hcontainer
    · exact hcomplete.not_knowsByName linked hcontainer hd
        ((knowsByName_iff_of_places hplaces hsound howner hj).mp hknows)

/-- An element stands for a declaration of its origin, unless it knows it by its name only. -/
theorem mem_hostForms_iff_of_holds (linked : r.host.Linked) (acyclic : r.host.Acyclic)
    (listed : r.host.Listed) (h : r.Faithful c) {o : Origin} (horigin : r.origin d = .ok (some o))
    (hholds : o.Holds r c id) (hel : c.element? id = some e) :
    d ∈ e.hostForms ↔ ¬ r.host.KnowsByName c.get? c.element? d := by
  cases arises_of_origin linked acyclic horigin with
  | package hkind =>
    obtain rfl := Option.some.inj (hel.symm.trans hholds)
    refine iff_of_true List.mem_cons_self fun hknows => ?_
    rcases hknows.kind with hk | hk <;> simp [hk] at hkind
  | implicit kind hkind =>
    obtain rfl := Option.some.inj (hel.symm.trans hholds)
    refine iff_of_true List.mem_cons_self fun hknows => ?_
    rcases hknows.kind with hk | hk <;> simp [hk, DeclKind.isType] at hkind
  | implicitIn kind hparent howner hparameter htypeParameter =>
    obtain ⟨_, -, -, hel'⟩ := hholds
    obtain rfl := Option.some.inj (hel.symm.trans hel')
    exact iff_of_true List.mem_cons_self
      (not_knowsByName_of_implicitIn linked h hparent howner hparameter htypeParameter)
  | claimed hb hd =>
    obtain ⟨hforms, hnot⟩ := mem_hostForms_of_claimed linked hb hd hholds hel
    exact iff_of_true hforms hnot
  | namedParameter hparent howner hb he hd hkind himplicit hids _ =>
    obtain ⟨-, -, hcomplete⟩ := batch?_eq_some linked hb
    have hi := claim_of_origin linked acyclic howner hb he
      (by rintro p rfl; cases hids) (by rintro p rfl; cases hids)
    have hknows := hcomplete.knowsByName_of_parameter linked listed hparent hi he hids hd hkind
      himplicit
    obtain ⟨hnot, hknows'⟩ := not_mem_of_knowsByName linked hb hholds hel hparent hi hd hknows
    exact iff_of_false hnot (not_not_intro hknows')
  | namedTypeParameter hparent howner hb he hd hkind _ hids _ =>
    obtain ⟨-, -, hcomplete⟩ := batch?_eq_some linked hb
    have hi := claim_of_origin linked acyclic howner hb he
      (by rintro p rfl; cases hids) (by rintro p rfl; cases hids)
    have hknows := hcomplete.knowsByName_of_typeParameter linked listed hparent hi he hids hd hkind
    obtain ⟨hnot, hknows'⟩ := not_mem_of_knowsByName linked hb hholds hel hparent hi hd hknows
    exact iff_of_false hnot (not_not_intro hknows')

/-- The element that a declaration is resolved to after any operations stands for the declaration,
unless it knows it by its name only. -/
theorem mem_hostForms_iff_of_resolve {t : DeclTree} (built : t.Built) (acyclic : t.toHost.Acyclic)
    (listed : t.toHost.Listed) (config : Config) (ops : List Operation) (d : DeclId)
    (id : ElementId) (c' : Cache)
    (hresolve : resolve ⟨t.toHost, config⟩ d (runAll ⟨t.toHost, config⟩ ops) = .ok (some id) c') :
    ∃ e, c'.element? id = some e ∧
      (d ∈ e.hostForms ↔ ¬ t.toHost.KnowsByName c'.get? c'.element? d) := by
  have linked : t.toHost.Linked := built.linked.toHost
  have hagrees := agrees_resolve (r := ⟨t.toHost, config⟩) linked acyclic d _
    (faithful_runAll linked acyclic ops)
  rw [hresolve] at hagrees
  generalize hy : Resolver.origin ⟨t.toHost, config⟩ d = y at hagrees
  cases hagrees with
  | found keeps entry holds =>
    obtain ⟨e, f, -, hel, -⟩ := holds.element linked
    exact ⟨_, hel, mem_hostForms_iff_of_holds linked acyclic listed keeps.faithful hy holds hel⟩

private theorem not_mem_hostForms_overloaded {e : Element}
    (he : Cache.overloaded.element? ⟨3⟩ = some e) : ⟨6⟩ ∉ e.hostForms := by
  obtain rfl := Option.some.inj he
  decide

/-- The type parameter of the sibling is known by its name only. -/
theorem knowsByName_overloaded :
    ∃ c' e, resolve ⟨(DeclTree.overloaded .overloaded).toHost, {}⟩ ⟨6⟩
      (runAll ⟨(DeclTree.overloaded .overloaded).toHost, {}⟩ []) = .ok (some ⟨3⟩) c' ∧
      c'.element? ⟨3⟩ = some e ∧ ⟨6⟩ ∉ e.hostForms ∧
      (DeclTree.overloaded .overloaded).toHost.KnowsByName c'.get? c'.element? ⟨6⟩ := by
  obtain ⟨e, he, hiff⟩ := mem_hostForms_iff_of_resolve (DeclTree.built_overloaded .overloaded)
    (DeclTree.acyclic_overloaded .overloaded) (DeclTree.listed_of_isListed rfl) {} [] ⟨6⟩ ⟨3⟩
    Cache.overloaded resolve_overloaded
  have hforms : (⟨6⟩ : DeclId) ∉ e.hostForms := not_mem_hostForms_overloaded he
  exact ⟨_, e, resolve_overloaded, he, hforms, not_not.mp (mt hiff.mpr hforms)⟩

/-- Not every declaration is among those that its element stands for. -/
theorem not_forall_mem_hostForms :
    ¬ ∀ t : DeclTree, t.Built → t.toHost.Acyclic → t.toHost.Listed →
      ∀ (config : Config) (ops : List Operation) (d : DeclId) (id : ElementId) (c' : Cache),
        resolve ⟨t.toHost, config⟩ d (runAll ⟨t.toHost, config⟩ ops) = .ok (some id) c' →
          ∃ e, c'.element? id = some e ∧ d ∈ e.hostForms := by
  intro h
  obtain ⟨e, he, hmem⟩ := h _ (DeclTree.built_overloaded .overloaded)
    (DeclTree.acyclic_overloaded .overloaded) (DeclTree.listed_of_isListed rfl) {} [] ⟨6⟩ ⟨3⟩
    Cache.overloaded resolve_overloaded
  exact not_mem_hostForms_overloaded he hmem

end Resolver

end Correspondence
