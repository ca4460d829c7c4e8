import Correspondence.Proofs.Failure

/-!
# Stability

An element keeps its number and its data, and a declaration keeps its element, whatever the resolver
is asked for afterwards. So a declaration is resolved at most once.
-/

namespace Correspondence.Resolver

variable {r : Resolver} {c c' : Cache} {d : DeclId} {id : ElementId}

/-- What a declaration is resolved to is entered for it. -/
theorem get?_of_resolve (linked : r.host.Linked) (acyclic : r.host.Acyclic) (h : r.Faithful c)
    (hresolve : r.resolve d c = .ok (some id) c') : r.Faithful c' ∧ c'.get? d = some id := by
  have hagrees := agrees_resolve linked acyclic d c h
  rw [hresolve] at hagrees
  generalize r.origin d = y at hagrees
  cases hagrees with
  | found keeps entry _ => exact ⟨keeps.faithful, entry⟩

/-- The batch of a class or file that was resolved. -/
theorem exists_batch_of_resolve (linked : r.host.Linked) (acyclic : r.host.Acyclic)
    (h : r.Faithful c) (htype : (r.host.kind d).isType)
    (hmetadata : (∃ metadata, r.host.metadata d = some (.ofClass metadata)) ∨
      ∃ metadata, r.host.metadata d = some (.fileFacade metadata))
    {found : Option ElementId} {c' : Cache} (hresolve : r.resolve d c = .ok found c') :
    ∃ b tid, r.batch? d = some b ∧ found = some tid := by
  obtain ⟨build, hbuild⟩ : ∃ build, r.build? d = some build := by
    rcases hmetadata with ⟨metadata, hmetadata⟩ | ⟨metadata, hmetadata⟩
    · exact ⟨_, build?_of_ofClass hmetadata⟩
    · exact ⟨_, build?_of_fileFacade hmetadata⟩
  have hagrees := agrees_resolve linked acyclic d c h
  rw [hresolve] at hagrees
  generalize hy : r.origin d = y at hagrees
  cases hagrees with
  | found keeps entry holds =>
    obtain ⟨b, -, hb, -⟩ := exists_made_of_origin linked acyclic htype hbuild hy
    exact ⟨b, _, hb, rfl⟩
  | absent keeps =>
    obtain ⟨b, -, -, hnone⟩ := exists_made_of_origin linked acyclic htype hbuild hy
    cases hnone

/-- What has an origin is resolved. -/
theorem Faithful.resolve_of_origin (h : r.Faithful c) (linked : r.host.Linked)
    (acyclic : r.host.Acyclic) {o : Origin} (horigin : r.origin d = .ok (some o)) :
    ∃ id c', r.resolve d c = .ok (some id) c' := by
  have hagrees := agrees_resolve linked acyclic d c h
  rw [horigin] at hagrees
  generalize r.resolve d c = x at hagrees
  cases hagrees with
  | found => exact ⟨_, _, rfl⟩

/-- What has no origin for an error is that error. -/
theorem Faithful.resolve_of_origin_error (h : r.Faithful c) (linked : r.host.Linked)
    (acyclic : r.host.Acyclic) {e : ResolveError} (horigin : r.origin d = .error e) :
    ∃ c', r.resolve d c = .error e c' := by
  have hagrees := agrees_resolve linked acyclic d c h
  rw [horigin] at hagrees
  generalize r.resolve d c = x at hagrees
  cases hagrees with
  | failed => exact ⟨_, rfl⟩

/-- What is entered is answered, and the cache stays as it is. -/
theorem resolve_of_get? (linked : r.host.Linked) (acyclic : r.host.Acyclic)
    (hd : c.get? d = some id) : r.resolve d c = .ok (some id) c := by
  rw [resolve_eq linked acyclic]
  exact resolveStep_of_get?_eq_some hd

/-- The class is resolved with the type parameter of the sibling. -/
theorem resolve_class_overloaded :
    let r : Resolver := ⟨(DeclTree.overloaded .overloaded).toHost, {}⟩
    r.resolve ⟨1⟩ (r.runAll [.resolve ⟨6⟩]) = .ok (some ⟨0⟩) Cache.overloaded := by
  intro r
  have linked : r.host.Linked := (DeclTree.built_overloaded .overloaded).linked.toHost
  rw [runAll_overloaded []]
  exact resolve_of_get? linked (DeclTree.acyclic_overloaded .overloaded) rfl

/-- What is in a batch that is in the cache is answered without a change to the cache. -/
theorem resolve_of_places (linked : r.host.Linked) (acyclic : r.host.Acyclic) {container : DeclId}
    {b : Batch} {n : Nat} (hplaces : c.Places b n) (hb : r.batch? container = some b) {e : Element}
    (he : b.get? id = some e) (hmem : d ∈ e.hostForms) :
    r.resolve d c = .ok (some (id.shift n)) c :=
  resolve_of_get? linked acyclic
    (hplaces.claim ((sound_of_batch? linked hb).claimed.mpr ⟨e, he, hmem⟩))

/-- What the source compiler made in an element of the cache is answered as implicit there. -/
theorem resolve_of_implicitIn (linked : r.host.Linked) (acyclic : r.host.Acyclic)
    (h : r.Faithful c) {container : DeclId} {place owner : ElementId} {kind : ImplicitKind}
    (horigin : r.origin d = .ok (some (.implicitIn (.staged container place) d kind)))
    (howner : Origin.Holds r c (.staged container place) owner) :
    ∃ id c', r.resolve d c = .ok (some id) c' ∧ r.Keeps c c' ∧ c'.get? d = some id ∧
      c'.element? id = some (.implicit
        { host := d, kind, name := r.host.simpleName d, owner := some owner }) := by
  have hagrees := agrees_resolve linked acyclic d c h
  rw [horigin] at hagrees
  generalize r.resolve d c = x at hagrees
  cases hagrees with
  | found keeps entry holds =>
    obtain ⟨owner', howner', -, hel⟩ := holds
    obtain rfl := staged_unique linked (howner.mono keeps.grows) howner'
    exact ⟨_, _, rfl, keeps, entry, hel⟩

/-- No operation, whether it succeeds or fails, changes an element or an entry; and a declaration
that was resolved once is resolved to the same element ever after, without a change to the cache. -/
theorem resolve_stable {t : DeclTree} (built : t.Built) (acyclic : t.toHost.Acyclic)
    (config : Config) (ops : List Operation) :
    let r : Resolver := ⟨t.toHost, config⟩
    let c := r.runAll ops
    (∀ op id e, c.element? id = some e → (r.run c op).element? id = some e) ∧
      (∀ op d id, c.get? d = some id → (r.run c op).get? d = some id) ∧
      ∀ d id c', r.resolve d c = .ok (some id) c' → ∀ later : List Operation,
        let c'' := later.foldl r.run c'
        r.resolve d c'' = .ok (some id) c'' := by
  intro r c
  have linked : r.host.Linked := built.linked.toHost
  have h : r.Faithful c := faithful_runAll linked acyclic ops
  refine ⟨fun op id e he => ?_, fun op d id hd => ?_, fun d id c' hresolve later => ?_⟩
  · exact (faithful_run linked acyclic h op).2.element he
  · exact (faithful_run linked acyclic h op).2.entry hd
  · obtain ⟨h', hd⟩ := get?_of_resolve linked acyclic h hresolve
    obtain ⟨-, hgrows⟩ := faithful_foldl linked acyclic h' later
    exact resolve_of_get? linked acyclic (hgrows.entry hd)

set_option maxRecDepth 20000 in
private theorem size_run_overloaded :
    let r : Resolver := ⟨(DeclTree.overloaded .overloaded).toHost, {}⟩
    (r.run (r.runAll [.resolve ⟨0⟩]) (.resolve ⟨1⟩)).elements.size = 5 := by
  cbv

/-- The package keeps its element while the four elements of the class are added. -/
theorem resolve_stable_overloaded :
    let r : Resolver := ⟨(DeclTree.overloaded .overloaded).toHost, {}⟩
    let c := r.runAll [.resolve ⟨0⟩]
    let c' := r.run c (.resolve ⟨1⟩)
    c.elements.size = 1 ∧ c'.elements.size = 5 ∧
      c'.element? ⟨0⟩ = some (.package { host := ⟨0⟩, name := "p" }) ∧ c'.get? ⟨0⟩ = some ⟨0⟩ ∧
      r.resolve ⟨0⟩ c' = .ok (some ⟨0⟩) c' := by
  intro r c c'
  obtain ⟨hel, hentry, hlater⟩ := resolve_stable (DeclTree.built_overloaded .overloaded)
    (DeclTree.acyclic_overloaded .overloaded) {} [.resolve ⟨0⟩]
  exact ⟨rfl, size_run_overloaded, hel (.resolve ⟨1⟩) ⟨0⟩ _ rfl, hentry (.resolve ⟨1⟩) ⟨0⟩ ⟨0⟩ rfl,
    hlater ⟨0⟩ ⟨0⟩ c rfl [.resolve ⟨1⟩]⟩

end Correspondence.Resolver
