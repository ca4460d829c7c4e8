import Correspondence.Proofs.Matched
import Correspondence.Proofs.Stability

/-!
# Attribution

No method of a class or file is lost. What a descriptor records is in the element of that descriptor;
anything else is a sibling of one function, or was made by the source compiler.
-/

namespace Correspondence

/-- The compiled member with a role. -/
def PropertyElement.member? (p : PropertyElement) : AccessorRole → Option DeclId
  | .field => p.field
  | .getter => p.getter
  | .setter => p.setter
  | .holder => p.holder

theorem PropertyElement.mem_hosts_of_member? {p : PropertyElement} {role : AccessorRole} {d : DeclId}
    (h : p.member? role = some d) : d ∈ p.hosts := by
  simp only [hosts, List.mem_filterMap, id_eq, exists_eq_right]
  cases role <;> simp_all [member?]

namespace Container

variable {c : Container} {index : DescriptorIndex} {b : Batch}
  {lists : MemberList → List ElementId} {functions : List FunctionDescriptor}
  {properties : List PropertyDescriptor} {m : DeclId}

private theorem exists_getElem?_zip {α β : Type} {l : List α} {k : List β}
    (hlength : l.length = k.length) {i : Nat} {x : α} (hx : l[i]? = some x) :
    ∃ y, (l.zip k)[i]? = some (x, y) := by
  have hi : i < k.length := hlength ▸ (List.getElem?_eq_some_iff.mp hx).1
  exact ⟨k[i], List.getElem?_zip_eq_some.mpr ⟨hx, List.getElem?_eq_getElem hi⟩⟩

/-- A method whose signature a function records is matched with that function. -/
theorem Contents.function_of_functionWith? (h : c.Contents index b lists)
    (hindex : index.Indexes functions properties) (hm : m ∈ c.host.members c.decl .method) {i : Nat}
    (hi : index.functionWith? (c.host.signature m) = some i) :
    ∃ id f, (lists .functions)[i]? = some id ∧ b.get? id = some (.function f) ∧ f.host = m := by
  obtain ⟨indexed, hindexed, hsignature⟩ := hindex.functionWith?.mp hi
  obtain ⟨descriptors, hlength, hall⟩ := h.functions
  obtain ⟨descriptor, hx⟩ := exists_getElem?_zip hlength hindexed
  obtain ⟨id, hid, found, f, hmade⟩ := exists_getElem?_of_forall₂ hall.flip hx
  have fits := MemberMatcher.find_eq_ok hmade.find_eq
  refine ⟨id, f, hid, hmade.get?_eq, ?_⟩
  rw [hmade.eq, fits.unique hm hsignature.symm]
  rfl

/-- A method whose signature a property records is the member of that property with the role. -/
theorem Contents.property_of_accessorWith? (h : c.Contents index b lists)
    (hindex : index.Indexes functions properties) (hm : m ∈ c.host.members c.decl .method) {i : Nat}
    {role : AccessorRole} (hi : index.accessorWith? (c.host.signature m) = some (i, role)) :
    ∃ id p, (lists .properties)[i]? = some id ∧ b.get? id = some (.property p) ∧
      p.member? role = some m := by
  obtain ⟨indexed, hindexed, hsignature⟩ := hindex.accessorWith?.mp hi
  obtain ⟨descriptors, hdescribes, hall⟩ := h.properties
  obtain ⟨descriptor, hx⟩ := exists_getElem?_zip hdescribes.length_eq hindexed
  obtain ⟨id, hid, e, ⟨found, hfound, rfl⟩, he⟩ := exists_getElem?_of_forall₂ hall.flip hx
  refine ⟨id, _, hid, he, ?_⟩
  have hrole : role ≠ .field := by
    rintro rfl
    cases hsignature
  have hmember : found.get? role = some m :=
    (PropertyAssembler.accessor_eq_ok ((PropertyAssembler.assemble_eq_ok hfound).2 role hrole)).mpr
      ⟨hm, hsignature⟩
  rw [← hmember]
  cases role <;> rfl

/-- What stands for a method that no descriptor records is a function of which it is a sibling. -/
theorem Complete.overload_of_unrecorded (h : c.Complete b) (linked : c.host.Linked)
    (hcontainer : (c.host.kind c.decl).isType) (hcontents : c.Contents index b lists)
    (hindex : index.Indexes functions properties) (hm : m ∈ c.host.members c.decl .method)
    (hfunction : index.functionWith? (c.host.signature m) = none)
    (haccessor : index.accessorWith? (c.host.signature m) = none) {id : ElementId} {e : Element}
    (he : b.get? id = some e) (hmem : m ∈ e.hostForms) :
    id ∈ lists .functions ∧ ∃ f, e = .function f ∧ m ∈ f.overloads := by
  have hadmits := h.admits linked hcontainer he hmem
  have hk : c.host.kind m = .method := of_decide_eq_true (List.mem_filter.mp hm).2
  rw [hk] at hadmits
  obtain ⟨_, constructors, functions', -, hst⟩ := h.stage
  have hacc := hst.accounted he
  cases e with
  | function f =>
    obtain ⟨_, -, _, hmade⟩ := hacc
    have hid := hcontents.mem_list he (hmade.standsAt 0).owner rfl
    obtain ⟨descriptors, -, hall⟩ := hcontents.functions
    obtain ⟨x, hx, found, f', hmade⟩ := exists_of_mem_forall₂ hall hid
    obtain rfl := Element.function.inj (Option.some.inj (he.symm.trans hmade.get?_eq))
    refine ⟨hid, f, rfl, ?_⟩
    rcases List.mem_cons.mp hmem with rfl | hmem
    · obtain ⟨i, hi⟩ := List.mem_iff_getElem?.mp (List.of_mem_zip hx).1
      have hsignature : c.host.signature f.host = x.1.signature := by
        rw [hmade.eq]
        exact (MemberMatcher.find_eq_ok hmade.find_eq).signature
      rw [hindex.functionWith?.mpr ⟨x.1, hi, hsignature.symm⟩] at hfunction
      cases hfunction
    · exact hmem
  | property p =>
    have hid := hcontents.mem_list he hacc.owner? rfl
    obtain ⟨descriptors, -, hall⟩ := hcontents.properties
    obtain ⟨x, hx, e, hproperty, he'⟩ := exists_of_mem_forall₂ hall hid
    obtain rfl := Option.some.inj (he.symm.trans he')
    rcases hproperty.mem_members hmem with hfield | ⟨-, role, hrole⟩
    · have hk' : c.host.kind m = .field := of_decide_eq_true (List.mem_filter.mp hfield).2
      rw [hk] at hk'
      cases hk'
    · obtain ⟨i, hi⟩ := List.mem_iff_getElem?.mp (List.of_mem_zip hx).1
      rw [hindex.accessorWith?.mpr ⟨x.1, hi, hrole⟩] at haccessor
      cases haccessor
  | implicit x => exact hacc.elim
  | _ => cases hadmits

end Container

/-- Where a method of a class or file belongs, given the number and the element of the class or
file. -/
inductive Attributed (host : Host) (index : DescriptorIndex) (c : Cache) (owner : ElementId)
    (e : Element) (m : DeclId) (id : ElementId) : Prop
  /-- A function records the signature. -/
  | function {i : Nat} {f : FunctionElement}
      (recorded : index.functionWith? (host.signature m) = some i)
      (listed : e.functions[i]? = some id) (element : c.element? id = some (.function f))
      (matched : f.host = m)
  /-- A property records the signature for a role. -/
  | accessor {i : Nat} {role : AccessorRole} {p : PropertyElement}
      (noFunction : index.functionWith? (host.signature m) = none)
      (recorded : index.accessorWith? (host.signature m) = some (i, role))
      (listed : e.properties[i]? = some id) (element : c.element? id = some (.property p))
      (matched : p.member? role = some m)
  /-- The method is a sibling of one function. -/
  | sibling {f : FunctionElement} (noFunction : index.functionWith? (host.signature m) = none)
      (noAccessor : index.accessorWith? (host.signature m) = none) (listed : id ∈ e.functions)
      (element : c.element? id = some (.function f)) (overload : m ∈ f.overloads)
      (unique : ∀ id' ∈ e.functions, ∀ f', c.element? id' = some (.function f') →
        m ∈ f'.overloads → id' = id)
  /-- The source compiler made the method. -/
  | implicit (noFunction : index.functionWith? (host.signature m) = none)
      (noAccessor : index.accessorWith? (host.signature m) = none)
      (element : c.element? id = some (.implicit
        { host := m, kind := .syntheticMember, name := host.simpleName m, owner := some owner }))
      (noOverload : ∀ id' ∈ e.functions, ∀ f', c.element? id' = some (.function f') →
        m ∉ f'.overloads)

theorem Element.functions_eq_listed (e : Element) : e.functions = e.listed .functions := by
  cases e <;> rfl

theorem Element.properties_eq_listed (e : Element) : e.properties = e.listed .properties := by
  cases e <;> rfl

namespace Resolver

variable {r : Resolver} {c : Cache} {d m : DeclId} {b : Batch} {tid : ElementId}

/-- A method that no descriptor records, once its class or file is entered. -/
private theorem Faithful.attributed_of_unrecorded (h : r.Faithful c) (linked : r.host.Linked)
    (acyclic : r.host.Acyclic) (hb : r.batch? d = some b) {n : Nat} (hplaces : c.Places b n)
    {index : DescriptorIndex} {e : Element} (hcontents : (r.containerOf d).Contents index b e.listed)
    {functions : List FunctionDescriptor} {properties : List PropertyDescriptor}
    (hindex : index.Indexes functions properties) (hm : m ∈ r.host.members d .method)
    (hfunction : index.functionWith? (r.host.signature m) = none)
    (haccessor : index.accessorWith? (r.host.signature m) = none) :
    ∃ id c', r.resolve m c = .ok (some id) c' ∧
      Attributed r.host index c' ((⟨0⟩ : ElementId).shift n) (e.mapIds (.shift n)) m id := by
  obtain ⟨hcontainer, -, hcomplete⟩ := batch?_eq_some linked hb
  cases hclaim : b.claims.find? m with
  | some id =>
    obtain ⟨e', he', hmem⟩ := (sound_of_batch? linked hb).claimed.mp hclaim
    obtain ⟨hid, f, rfl, hoverload⟩ := hcomplete.overload_of_unrecorded linked hcontainer hcontents
      hindex hm hfunction haccessor he' hmem
    refine ⟨_, c, resolve_of_places linked acyclic hplaces hb he' hmem, ?_⟩
    refine .sibling hfunction haccessor ?_ (hplaces.element he') hoverload
      fun id' _ f' hf' hoverload' => ?_
    · rw [Element.functions_eq_listed, Element.listed_mapIds]
      exact List.mem_map_of_mem hid
    · have hentry := h.filed hf' (List.mem_cons_of_mem _ hoverload')
      exact Option.some.inj (hentry.symm.trans (hplaces.claim hclaim))
  | none =>
    obtain ⟨hencl, hk⟩ := List.mem_filter.mp hm
    have horigin := origin_of_unclaimed linked acyclic hb hencl (.inl (of_decide_eq_true hk)) hclaim
    obtain ⟨e₀, he₀, -⟩ := hcomplete.container
    have howner : Origin.Holds r c (.staged d ⟨0⟩) ((⟨0⟩ : ElementId).shift n) :=
      ⟨b, n, hb, hplaces, rfl, e₀, he₀⟩
    obtain ⟨id, c', hresolve, keeps, entry, hel⟩ :=
      resolve_of_implicitIn linked acyclic h horigin howner
    refine ⟨id, c', hresolve, .implicit hfunction haccessor hel fun id' _ f' hf' hmem => ?_⟩
    have hentry := keeps.faithful.filed hf' (List.mem_cons_of_mem _ hmem)
    obtain rfl := Option.some.inj (entry.symm.trans hentry)
    rw [hel] at hf'
    cases hf'

/-- Every method of a class or file that is entered resolves to where it belongs. -/
theorem Faithful.attributed (h : r.Faithful c) (linked : r.host.Linked) (acyclic : r.host.Acyclic)
    (hb : r.batch? d = some b) (hd : c.get? d = some tid) :
    ∃ index e, r.host.index? d = some index ∧ c.element? tid = some e ∧
      ∀ m ∈ r.host.members d .method, ∃ id c', r.resolve m c = .ok (some id) c' ∧
        Attributed r.host index c' tid e m id := by
  obtain ⟨-, -, hcomplete⟩ := batch?_eq_some linked hb
  obtain ⟨index, e, hindex?, he, hcontents⟩ := hcomplete.contents
  obtain ⟨functions, properties, hindex⟩ := Host.indexes_of_index? hindex?
  obtain ⟨n, hplaces, rfl⟩ := h.places_of_claimed linked acyclic hb (claim_of_batch? linked hb) hd
  refine ⟨index, e.mapIds (.shift n), hindex?, hplaces.element he, fun m hm => ?_⟩
  cases hfunction : index.functionWith? (r.host.signature m) with
  | some i =>
    obtain ⟨id, f, hid, hf, hhost⟩ := hcontents.function_of_functionWith? hindex hm hfunction
    refine ⟨_, c, resolve_of_places linked acyclic hplaces hb hf (hhost ▸ List.mem_cons_self), ?_⟩
    refine .function hfunction ?_ (hplaces.element hf) hhost
    rw [Element.functions_eq_listed, Element.listed_mapIds, List.getElem?_map, hid, Option.map_some]
  | none =>
    cases haccessor : index.accessorWith? (r.host.signature m) with
    | some x =>
      obtain ⟨i, role⟩ := x
      obtain ⟨id, p, hid, hp, hmember⟩ := hcontents.property_of_accessorWith? hindex hm haccessor
      refine ⟨_, c, resolve_of_places linked acyclic hplaces hb hp
        (PropertyElement.mem_hosts_of_member? hmember), ?_⟩
      refine .accessor hfunction haccessor ?_ (hplaces.element hp) ?_
      · rw [Element.properties_eq_listed, Element.listed_mapIds, List.getElem?_map, hid,
          Option.map_some]
      · rw [← hmember]
        cases role <;> rfl
    | none =>
      exact h.attributed_of_unrecorded linked acyclic hb hplaces hcontents hindex hm hfunction
        haccessor

/-- No method of a class or file that was resolved once is lost or belongs to another descriptor,
whatever the resolver was asked for afterwards: it resolves to the element of the descriptor that
records its signature, to the one function of which it is a sibling, or to a declaration of the source
compiler in the class or file. -/
theorem attributed_of_resolve {t : DeclTree} (built : t.Built) (acyclic : t.toHost.Acyclic)
    (config : Config) (ops : List Operation) {d : DeclId} (htype : (t.toHost.kind d).isType)
    (hmetadata : (∃ metadata, t.toHost.metadata d = some (.ofClass metadata)) ∨
      ∃ metadata, t.toHost.metadata d = some (.fileFacade metadata))
    {found : Option ElementId} {c' : Cache}
    (hresolve : resolve ⟨t.toHost, config⟩ d (runAll ⟨t.toHost, config⟩ ops) = .ok found c')
    (later : List Operation) :
    let r : Resolver := ⟨t.toHost, config⟩
    let c := later.foldl r.run c'
    ∃ tid index e, found = some tid ∧ r.host.index? d = some index ∧ c.element? tid = some e ∧
      ∀ m ∈ r.host.members d .method, ∃ id c'', r.resolve m c = .ok (some id) c'' ∧
        Attributed r.host index c'' tid e m id := by
  intro r c
  have linked : r.host.Linked := built.linked.toHost
  have h : r.Faithful (r.runAll ops) := faithful_runAll linked acyclic ops
  obtain ⟨b, tid, hb, rfl⟩ := exists_batch_of_resolve linked acyclic h htype hmetadata hresolve
  obtain ⟨h', hd⟩ := get?_of_resolve linked acyclic h hresolve
  obtain ⟨h'', hgrows⟩ := faithful_foldl linked acyclic h' later
  obtain ⟨index, e, hindex, he, hmethods⟩ := h''.attributed linked acyclic hb (hgrows.entry hd)
  exact ⟨tid, index, e, rfl, hindex, he, hmethods⟩

/-- The method with fewer parameters is attributed to the function. -/
theorem attributed_overloaded :
    let r : Resolver := ⟨(DeclTree.overloaded .overloaded).toHost, {}⟩
    ∃ index e, r.host.index? ⟨1⟩ = some index ∧ Cache.overloaded.element? ⟨0⟩ = some e ∧
      Attributed r.host index Cache.overloaded ⟨0⟩ e ⟨5⟩ ⟨1⟩ := by
  intro r
  have linked : r.host.Linked := (DeclTree.built_overloaded .overloaded).linked.toHost
  have acyclic : r.host.Acyclic := DeclTree.acyclic_overloaded .overloaded
  obtain ⟨tid, index, e, htid, hindex, he, hmethods⟩ :=
    attributed_of_resolve (DeclTree.built_overloaded .overloaded) acyclic {} [.resolve ⟨6⟩]
      rfl (.inl ⟨.overloaded, rfl⟩) resolve_class_overloaded []
  obtain rfl := Option.some.inj htid
  obtain ⟨id, c, hm, hattributed⟩ := hmethods ⟨5⟩ (by decide)
  have hentry : r.resolve ⟨5⟩ Cache.overloaded = .ok (some ⟨1⟩) Cache.overloaded :=
    resolve_of_get? linked acyclic rfl
  obtain ⟨hid, rfl⟩ := EStateM.Result.ok.inj (hentry.symm.trans hm)
  obtain rfl := Option.some.inj hid
  exact ⟨index, e, hindex, he, hattributed⟩

end Resolver

end Correspondence
