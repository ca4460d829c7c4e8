import Correspondence.Proofs.RoundTrip
import Correspondence.Proofs.Stability

/-!
# Parameters of a class that is resolved

Once a class or file is resolved, so are the parameters of its methods and constructors, and the type
parameters of its methods. Only a sibling may declare one by a name that its function does not have.
-/

namespace Correspondence

/-- Whether none of some elements has a name. -/
def NoneNamed (elementOf : ElementId → Option Element) (ids : List ElementId) (name : String) :
    Prop :=
  ∀ j ∈ ids, ∀ e, elementOf j = some e → e.name ≠ name

/-- Whether a function has a sibling that declares a type parameter, or a parameter that is no
implicit one, by a name that the function does not have. -/
def FunctionElement.Lacks (host : Host) (elementOf : ElementId → Option Element)
    (f : FunctionElement) (sibling d : DeclId) : Prop :=
  sibling ∈ f.overloads ∧
    (host.kind d = .typeParameter ∧ NoneNamed elementOf f.typeParameters (host.simpleName d) ∨
      host.kind d = .parameter ∧
        Resolver.isImplicitParameter host sibling d (some (.function f)) = false ∧
        NoneNamed elementOf f.parameters (host.simpleName d))

/-- Whether some function lacks what one of its siblings declares. -/
def Host.Lacking (host : Host) (elementOf : ElementId → Option Element) (sibling d : DeclId) :
    Prop :=
  ∃ id f, elementOf id = some (.function f) ∧ f.Lacks host elementOf sibling d

namespace Resolver

variable {r : Resolver} {c : Cache} {d m p : DeclId} {b : Batch} {n : Nat}

private theorem noneNamed_of_namedIn? {ids : List ElementId} {name : String} {container : DeclId}
    {i : ElementId} (hb : r.batch? container = some b) (hplaces : c.Places b n)
    (hclosed : ∀ j ∈ ids, ∃ e, b.get? j = some e)
    (h : r.namedIn? ids name (.staged container i) = none) :
    NoneNamed c.element? (ids.map (.shift n)) name := by
  refine List.forall_mem_map.mpr fun j hj e he => ?_
  obtain ⟨e₀, he₀⟩ := hclosed j hj
  obtain rfl := Option.some.inj (he.symm.trans (hplaces.element he₀))
  have hnone := List.find?_eq_none.mp (Option.map_eq_none_iff.mp h) j hj
  simpa [element?, Origin.target, hb, he₀] using hnone

/-- Where a method or constructor of a class or file has its origin. -/
private theorem origin_of_member (linked : r.host.Linked) (acyclic : r.host.Acyclic)
    (hb : r.batch? d = some b) (hm : m ∈ r.host.enclosed d)
    (hkind : r.host.kind m = .method ∨ r.host.kind m = .constructor) :
    (∃ i e, r.origin m = .ok (some (.staged d i)) ∧ b.claims.find? m = some i ∧
      b.get? i = some e) ∨
    r.origin m = .ok (some (.implicitIn (.staged d ⟨0⟩) m .syntheticMember)) := by
  cases hclaim : b.claims.find? m with
  | some i =>
    obtain ⟨e, he, -⟩ := (sound_of_batch? linked hb).claimed.mp hclaim
    exact .inl ⟨i, e, origin_of_claimed linked acyclic hb hclaim, rfl, he⟩
  | none => exact .inr (origin_of_unclaimed linked acyclic hb hm hkind hclaim)

/-- A parameter of a member of a class or file has an origin, unless a function lacks it. -/
private theorem exists_origin_of_parameter (linked : r.host.Linked) (acyclic : r.host.Acyclic)
    (hb : r.batch? d = some b) (hplaces : c.Places b n) (hm : m ∈ r.host.enclosed d)
    (hkind : r.host.kind m = .method ∨ r.host.kind m = .constructor)
    (hp : p ∈ r.host.parameters m) (hlacking : ¬ r.host.Lacking c.element? m p) :
    ∃ o, r.origin p = .ok (some o) := by
  obtain ⟨-, -, hcomplete⟩ := batch?_eq_some linked hb
  have hk : r.host.kind p = .parameter := (linked.parameter hp).2
  rcases origin_of_member linked acyclic hb hm hkind with ⟨i, e, ho, hi, he⟩ | ho
  · cases hclaim : b.claims.find? p with
    | some j => exact ⟨_, origin_of_claimed linked acyclic hb hclaim⟩
    | none =>
      rw [origin_of_parameter linked acyclic hp ho Origin.staged_ne_package
        (by simp [claimed?, batchOf?, hb, hclaim])]
      simp only [unclaimedParameter, element?, hb, Option.bind_some, he]
      split
      · exact ⟨_, rfl⟩
      rename_i himplicit
      rw [Bool.not_eq_true] at himplicit
      split
      · exact ⟨_, rfl⟩
      rename_i hnone
      cases e with
      | function f =>
        have hsibling := hcomplete.mem_overloads_of_parameter hi he rfl hp hclaim himplicit
        have hclosed : ∀ j ∈ f.parameters, ∃ e', b.get? j = some e' := fun j hj =>
          (sound_of_batch? linked hb).closed he (Element.mem_references_of_parameters? rfl hj)
        exact absurd ⟨_, _, hplaces.element he, hsibling,
          .inr ⟨hk, himplicit, noneNamed_of_namedIn? hb hplaces hclosed hnone⟩⟩ hlacking
      | constructor f =>
        have hsibling := hcomplete.mem_overloads_of_parameter hi he rfl hp hclaim himplicit
        obtain ⟨j, hj⟩ := hcomplete.claimed_of_constructor he hsibling hp
        rw [hclaim] at hj
        cases hj
      | _ => cases himplicit
  · rw [origin_of_parameter linked acyclic hp ho Origin.implicitIn_ne_package rfl]
    exact ⟨_, rfl⟩

/-- A type parameter of a method of a class or file has an origin, unless a function lacks it. -/
private theorem exists_origin_of_typeParameter (linked : r.host.Linked) (acyclic : r.host.Acyclic)
    (hb : r.batch? d = some b) (hplaces : c.Places b n) (hm : m ∈ r.host.enclosed d)
    (hkind : r.host.kind m = .method) (hp : p ∈ r.host.typeParameters m)
    (hlacking : ¬ r.host.Lacking c.element? m p) : ∃ o, r.origin p = .ok (some o) := by
  obtain ⟨hcontainer, -, hcomplete⟩ := batch?_eq_some linked hb
  have hk : r.host.kind p = .typeParameter := (linked.typeParameter hp).2
  rcases origin_of_member linked acyclic hb hm (.inl hkind) with ⟨i, e, ho, hi, he⟩ | ho
  · cases hclaim : b.claims.find? p with
    | some j => exact ⟨_, origin_of_claimed linked acyclic hb hclaim⟩
    | none =>
      rw [origin_of_typeParameter linked acyclic hp hkind ho Origin.staged_ne_package
        (by simp [claimed?, batchOf?, hb, hclaim])]
      simp only [unclaimedTypeParameter, element?, hb, Option.bind_some, he]
      split
      · exact ⟨_, rfl⟩
      rename_i hnone
      obtain ⟨e', he', hforms⟩ := (sound_of_batch? linked hb).claimed.mp hi
      obtain rfl := Option.some.inj (he.symm.trans he')
      have hadmits := hcomplete.admits linked hcontainer he hforms
      change e.admits (r.host.kind m) at hadmits
      rw [hkind] at hadmits
      cases e with
      | function f =>
        have hsibling := hcomplete.mem_overloads_of_typeParameter hi he rfl hp hclaim
        have hclosed : ∀ j ∈ f.typeParameters, ∃ e', b.get? j = some e' := fun j hj =>
          (sound_of_batch? linked hb).closed he (Element.mem_references_of_typeParameters? rfl hj)
        exact absurd ⟨_, _, hplaces.element he, hsibling,
          .inl ⟨hk, noneNamed_of_namedIn? hb hplaces hclosed hnone⟩⟩ hlacking
      | property f =>
        simp only [unnamedTypeParameter, element?, hb, Option.bind_some, he]
        exact ⟨_, rfl⟩
      | implicit f => exact absurd rfl (hcomplete.ne_implicit he f)
      | _ => cases hadmits
  · rw [origin_of_typeParameter linked acyclic hp hkind ho Origin.implicitIn_ne_package rfl]
    exact ⟨_, rfl⟩

/-- A type parameter of a constructor is an error, for constructors cannot have any. -/
private theorem origin_of_constructor (linked : r.host.Linked) (acyclic : r.host.Acyclic)
    (hb : r.batch? d = some b) (hm : m ∈ r.host.enclosed d) (hkind : r.host.kind m = .constructor)
    (hp : p ∈ r.host.typeParameters m) :
    r.origin p = .error (.noTypeParameters (r.host.describe m)) := by
  obtain ⟨howner, hk⟩ := linked.typeParameter hp
  obtain ⟨o, ho, hpackage⟩ : ∃ o, r.origin m = .ok (some o) ∧ o ≠ .package m := by
    rcases origin_of_member linked acyclic hb hm (.inr hkind) with ⟨i, e, ho, -⟩ | ho
    · exact ⟨_, ho, Origin.staged_ne_package⟩
    · exact ⟨_, ho, Origin.implicitIn_ne_package⟩
  rw [origin_eq_sourceOrigin linked acyclic howner ho hpackage (by simp [hk])]
  simp only [sourceOrigin, hk, typeParameterOrigin, howner, hkind]
  rfl

/-- What the parameters and type parameters of a method or constructor are resolved to once its class
or file is resolved. -/
structure Committed (r : Resolver) (c : Cache) (m : DeclId) : Prop where
  parameter {p : DeclId} : p ∈ r.host.parameters m → ¬ r.host.Lacking c.element? m p →
    ∃ id c', r.resolve p c = .ok (some id) c'
  typeParameter {p : DeclId} : r.host.kind m = .method → p ∈ r.host.typeParameters m →
    ¬ r.host.Lacking c.element? m p → ∃ id c', r.resolve p c = .ok (some id) c'
  /-- A constructor cannot have type parameters. -/
  constructor {p : DeclId} : r.host.kind m = .constructor → p ∈ r.host.typeParameters m →
    ∃ c', r.resolve p c = .error (.noTypeParameters (r.host.describe m)) c'

theorem Faithful.committed (h : r.Faithful c) (linked : r.host.Linked) (acyclic : r.host.Acyclic)
    (hb : r.batch? d = some b) {tid : ElementId} (hd : c.get? d = some tid)
    (hm : m ∈ r.host.enclosed d)
    (hkind : r.host.kind m = .method ∨ r.host.kind m = .constructor) : r.Committed c m := by
  obtain ⟨n, hplaces, -⟩ := h.places_of_claimed linked acyclic hb (claim_of_batch? linked hb) hd
  refine ⟨fun hp hlacking => ?_, fun hkind hp hlacking => ?_, fun hkind hp => ?_⟩
  · obtain ⟨o, ho⟩ := exists_origin_of_parameter linked acyclic hb hplaces hm hkind hp hlacking
    exact h.resolve_of_origin linked acyclic ho
  · obtain ⟨o, ho⟩ := exists_origin_of_typeParameter linked acyclic hb hplaces hm hkind hp hlacking
    exact h.resolve_of_origin linked acyclic ho
  · exact h.resolve_of_origin_error linked acyclic
      (origin_of_constructor linked acyclic hb hm hkind hp)

/-- Once a class or file is resolved, and whatever the resolver was asked for afterwards, all
parameters of its methods and constructors and all type parameters of its methods are resolved,
unless a sibling declares one by a name that its function lacks. A type parameter of a constructor is
an error. -/
theorem committed_of_resolve {t : DeclTree} (built : t.Built) (acyclic : t.toHost.Acyclic)
    (config : Config) (ops : List Operation) {d : DeclId} (htype : (t.toHost.kind d).isType)
    (hmetadata : (∃ metadata, t.toHost.metadata d = some (.ofClass metadata)) ∨
      ∃ metadata, t.toHost.metadata d = some (.fileFacade metadata))
    {found : Option ElementId} {c' : Cache}
    (hresolve : resolve ⟨t.toHost, config⟩ d (runAll ⟨t.toHost, config⟩ ops) = .ok found c')
    (later : List Operation) :
    let r : Resolver := ⟨t.toHost, config⟩
    ∀ m ∈ r.host.enclosed d, r.host.kind m = .method ∨ r.host.kind m = .constructor →
      r.Committed (later.foldl r.run c') m := by
  intro r m hm hkind
  have linked : r.host.Linked := built.linked.toHost
  have h : r.Faithful (r.runAll ops) := faithful_runAll linked acyclic ops
  obtain ⟨b, tid, hb, rfl⟩ := exists_batch_of_resolve linked acyclic h htype hmetadata hresolve
  obtain ⟨h', hd⟩ := get?_of_resolve linked acyclic h hresolve
  obtain ⟨h'', hgrows⟩ := faithful_foldl linked acyclic h' later
  exact h''.committed linked acyclic hb (hgrows.entry hd) hm hkind

private theorem not_lacking_overloaded :
    ¬ (DeclTree.overloaded .overloaded).toHost.Lacking Cache.overloaded.element? ⟨5⟩ ⟨6⟩ := by
  rintro ⟨id, f, hel, -, ⟨-, hnone⟩ | ⟨hk, -⟩⟩
  · have hid : id = ⟨1⟩ := by
      rcases id with ⟨_ | _ | _ | _ | i⟩
      · cases hel
      · rfl
      · cases hel
      · cases hel
      · cases hel
    obtain rfl := Element.function.inj (Option.some.inj (hid ▸ hel))
    exact hnone ⟨3⟩ (by decide) _ rfl rfl
  · cases hk

/-- The type parameter of the sibling is resolved. -/
theorem committed_overloaded :
    let r : Resolver := ⟨(DeclTree.overloaded .overloaded).toHost, {}⟩
    ∃ id c', r.resolve ⟨6⟩ Cache.overloaded = .ok (some id) c' := by
  intro r
  have hcommitted : r.Committed Cache.overloaded ⟨5⟩ :=
    committed_of_resolve (DeclTree.built_overloaded .overloaded)
      (DeclTree.acyclic_overloaded .overloaded) {} [.resolve ⟨6⟩] rfl (.inl ⟨.overloaded, rfl⟩)
      resolve_class_overloaded [] ⟨5⟩ (by decide) (.inl rfl)
  exact hcommitted.typeParameter rfl (by decide) not_lacking_overloaded

end Resolver

/-- A class with an extension function `f(x)` that has a type parameter, with a sibling that has the
receiver last and a type parameter of another name, and with a constructor that has a type
parameter. -/
def DeclTree.lacking (metadata : ClassMetadata) : DeclTree :=
  let t := ({} : DeclTree).addPackage "p"
  let t := t.addType ⟨0⟩ .classType "C"
  let t := t.addMethod ⟨1⟩ "f" .void
  let t := t.addParameter ⟨2⟩ "$this" .long
  let t := t.addParameter ⟨2⟩ "x" .int
  let t := t.addTypeParameter ⟨2⟩ "T"
  let t := t.addMethod ⟨1⟩ "f" .void
  let t := t.addParameter ⟨6⟩ "x" .int
  let t := t.addParameter ⟨6⟩ "$this" .long
  let t := t.addTypeParameter ⟨6⟩ "U"
  let t := t.addConstructor ⟨1⟩
  let t := t.addTypeParameter ⟨10⟩ "V"
  t.attach ⟨1⟩ (.ofClass metadata)

/-- The metadata of the class with the extension function. -/
def ClassMetadata.lacking : ClassMetadata where
  strings := .ofList ["p/C", "f", "x", "kotlin/Int", "kotlin/Unit", "T", "kotlin/Long"]
  descriptor :=
    { qualifiedName := ⟨0⟩, kind := .regular
      functions := [
        { name := ⟨1⟩, typeParameters := [{ id := 0, name := ⟨5⟩ }], receiver := some (.named ⟨6⟩)
          valueParameters := [{ name := ⟨2⟩, declaresDefault := true, type := .named ⟨3⟩ }]
          returnType := .named ⟨4⟩ }] }

/-- What is found out about the class when it is resolved. -/
def Cache.lacking : Cache where
  elements := #[
    .type
      { host := ⟨1⟩, qualifiedName := "p.C", packageName := "p", kind := .regular
        modality := .final, visibility := .everyone, flags := ⟨0⟩, companionName := none
        manglingSuffix := "main", functions := [⟨1⟩] },
    .function
      { host := ⟨2⟩, overloads := [⟨6⟩], owner := ⟨0⟩, name := "f", signature := "f(JI)V"
        modality := .final, visibility := .everyone, flags := ⟨0⟩, isExtension := true
        parameters := [⟨2⟩], typeParameters := [⟨3⟩] },
    .parameter
      { host := ⟨4⟩, overloadHosts := [⟨7⟩], owner := ⟨1⟩, name := "x", position := 0
        hasDefault := true, isVararg := false },
    .typeParameter
      { host := ⟨5⟩, owner := ⟨1⟩, name := "T", variance := .invariant, reified := false }]
  byDecl := ⟨[(⟨5⟩, ⟨3⟩), (⟨7⟩, ⟨2⟩), (⟨4⟩, ⟨2⟩), (⟨6⟩, ⟨1⟩), (⟨2⟩, ⟨1⟩), (⟨1⟩, ⟨0⟩)]⟩
  carriers := ⟨[(⟨1⟩, some ⟨1⟩)]⟩

/-- What is known next when a declaration that a member of the class lists is asked for. -/
def Cache.afterAsking (c : Cache) (d m : DeclId) : Cache :=
  { c with carriers := ⟨(d, some ⟨1⟩) :: (m, some ⟨1⟩) :: c.carriers.bindings⟩ }

namespace Resolver

/-- Whether all declarations that the members of a kind list are resolved once the class or file is,
with nothing left out. -/
def AllResolved (listed : Host → DeclId → List DeclId) (kind : DeclKind) : Prop :=
  ∀ t : DeclTree, t.Built → t.toHost.Acyclic → t.toHost.Listed →
    ∀ (config : Config) (ops : List Operation) (d : DeclId), (t.toHost.kind d).isType →
      ((∃ metadata, t.toHost.metadata d = some (.ofClass metadata)) ∨
        ∃ metadata, t.toHost.metadata d = some (.fileFacade metadata)) →
      ∀ (found : Option ElementId) (c' : Cache),
        resolve ⟨t.toHost, config⟩ d (runAll ⟨t.toHost, config⟩ ops) = .ok found c' →
          ∀ m ∈ t.toHost.enclosed d, t.toHost.kind m = kind → ∀ p ∈ listed t.toHost m,
            ∃ id c'', resolve ⟨t.toHost, config⟩ p c' = .ok (some id) c''

set_option maxRecDepth 20000 in
private theorem resolve_lacking :
    resolve ⟨(DeclTree.lacking .lacking).toHost, {}⟩ ⟨1⟩ {} = .ok (some ⟨0⟩) Cache.lacking := by
  cbv

private theorem not_allResolved_lacking {listed : Host → DeclId → List DeclId} {kind : DeclKind}
    {m p : DeclId} (hm : m ∈ (DeclTree.lacking .lacking).toHost.enclosed ⟨1⟩)
    (hkind : (DeclTree.lacking .lacking).toHost.kind m = kind)
    (hp : p ∈ listed (DeclTree.lacking .lacking).toHost m) {e : ResolveError} {c' : Cache}
    (herror : resolve ⟨(DeclTree.lacking .lacking).toHost, {}⟩ p Cache.lacking = .error e c') :
    ¬ AllResolved listed kind := by
  intro h
  have hbuilt : (DeclTree.lacking .lacking).Built := by
    apply DeclTree.Built.attach
    iterate 12 apply DeclTree.Built.add
    exact .empty
  obtain ⟨id, c'', hfound⟩ := h _ hbuilt (DeclTree.acyclic_of_isAscending rfl)
    (DeclTree.listed_of_isListed rfl) {} [] ⟨1⟩ rfl (.inl ⟨.lacking, rfl⟩) _ _ resolve_lacking
    m hm hkind p hp
  cases herror.symm.trans hfound

set_option maxRecDepth 20000 in
/-- Errors are left once a class is resolved: a parameter of a sibling, a type parameter of a
sibling, and a type parameter of a constructor. -/
theorem not_allResolved :
    ¬ AllResolved Host.parameters .method ∧ ¬ AllResolved Host.typeParameters .method ∧
      ¬ AllResolved Host.typeParameters .constructor := by
  refine ⟨?_, ?_, ?_⟩
  · have herror : resolve ⟨(DeclTree.lacking .lacking).toHost, {}⟩ ⟨8⟩ Cache.lacking =
        .error (.missingCorrespondence "p.C.f(int, long)" "$this" "f(IJ)V")
          (Cache.lacking.afterAsking ⟨8⟩ ⟨6⟩) := by cbv
    exact not_allResolved_lacking (m := ⟨6⟩) (by decide) rfl (by decide) herror
  · have herror : resolve ⟨(DeclTree.lacking .lacking).toHost, {}⟩ ⟨9⟩ Cache.lacking =
        .error (.typeParameterMismatch "p.C.f(int, long)" 0 "U" "T")
          (Cache.lacking.afterAsking ⟨9⟩ ⟨6⟩) := by cbv
    exact not_allResolved_lacking (m := ⟨6⟩) (by decide) rfl (by decide) herror
  · have herror : resolve ⟨(DeclTree.lacking .lacking).toHost, {}⟩ ⟨11⟩ Cache.lacking =
        .error (.noTypeParameters "p.C.<init>()") (Cache.lacking.afterAsking ⟨11⟩ ⟨10⟩) := by cbv
    exact not_allResolved_lacking (m := ⟨10⟩) (by decide) rfl (by decide) herror

end Resolver

end Correspondence
