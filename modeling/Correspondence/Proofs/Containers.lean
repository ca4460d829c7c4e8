import Correspondence.Proofs.Members

/-!
# Building classes and files

When all members are made, the element of the class or file lists them. The batch is then complete:
its class or file is its first element, everything else in it belongs to that element, and the lists
hold all that does.
-/

namespace Correspondence

/-- The constructors that a class has, of which an annotation type has none. -/
def ClassMetadata.declaredConstructors (metadata : ClassMetadata) : List ConstructorDescriptor :=
  if metadata.descriptor.kind = .annotationType then [] else metadata.descriptor.constructors

namespace Container

variable {c : Container} {index : DescriptorIndex} {constructors : List ConstructorDescriptor}
  {functions : List FunctionDescriptor} {b b' : Batch}

/-- Makes the constructors that a class has. -/
def buildDeclaredConstructors (c : Container) (index : DescriptorIndex)
    (metadata : ClassMetadata) : BuildM (List ElementId) :=
  if metadata.descriptor.kind = .annotationType then pure []
  else c.buildConstructors index metadata.descriptor.constructors

/-- Lets a class list its members. -/
def listType (constructors functions properties typeParameters enumEntries : List ElementId) :
    Element → Element
  | .type e => .type { e with typeParameters, constructors, functions, properties, enumEntries }
  | e => e

/-- Lets a file list its members. -/
def listFileFacade (functions properties : List ElementId) : Element → Element
  | .fileFacade e => .fileFacade { e with functions, properties }
  | e => e

/-- The members of a class, which its element lists in the end. -/
def buildTypeMembers (c : Container) (index : DescriptorIndex)
    (metadata : ClassMetadata) : BuildM ElementId := do
  let d := metadata.descriptor
  let strings := metadata.strings
  let typeParameters ← c.buildTypeParameters strings c.decl c.owner d.typeParameters
  let constructors ← c.buildDeclaredConstructors index metadata
  let functions ← c.buildFunctions index strings d.functions
  let properties ← c.buildProperties index d.properties
  let enumEntries ← c.buildEnumEntries index
  BuildM.modify c.owner (listType constructors functions properties typeParameters enumEntries)
  return c.owner

/-- The members of a file, which its element lists in the end. -/
def buildFileMembers (c : Container) (index : DescriptorIndex)
    (metadata : PackageMetadata) : BuildM ElementId := do
  let functions ← c.buildFunctions index metadata.strings metadata.descriptor.functions
  let properties ← c.buildProperties index metadata.descriptor.properties
  BuildM.modify c.owner (listFileFacade functions properties)
  return c.owner

/-- What the list of the constructors of a class holds: those of its descriptors, of which the primary
one comes first. -/
structure Constructs (c : Container) (index : DescriptorIndex) (metadata : ClassMetadata)
    (b : Batch) (ids : List ElementId) : Prop where
  hasPrimary : HasPrimary (index.constructors.zip metadata.declaredConstructors)
  made : List.Forall₂ (fun x id => ∃ found f, c.MadeConstructor index b x id found f)
    (primariesFirst (index.constructors.zip metadata.declaredConstructors)) ids

theorem Constructs.mono {metadata : ClassMetadata} {ids : List ElementId}
    (h : c.Constructs index metadata b ids) (hb : b.Extends b') :
    c.Constructs index metadata b' ids where
  hasPrimary := h.hasPrimary
  made := h.made.imp fun _ _ ⟨found, f, hmade⟩ => ⟨found, f, hmade.mono hb⟩

theorem Constructs.modify {metadata : ClassMetadata} {ids : List ElementId}
    (h : c.Constructs index metadata b ids) {o : Element} (ho : b.get? c.owner = some o)
    (hc : o.isContainer) (change : Element → Element) :
    c.Constructs index metadata (b.modify c.owner change) ids where
  hasPrimary := h.hasPrimary
  made := h.made.imp fun _ _ ⟨found, f, hmade⟩ => ⟨found, f, hmade.modify ho hc change⟩

/-- What the lists of a class or file hold when all members are made: functions and properties in the
order of an index, and all that belongs to the class or file, once each. -/
structure Contents (c : Container) (index : DescriptorIndex) (b : Batch)
    (lists : MemberList → List ElementId) : Prop where
  functions : ∃ descriptors : List FunctionDescriptor,
    index.functions.length = descriptors.length ∧
      List.Forall₂ (fun x id => ∃ found f, c.MadeFunction index b x id found f)
        (index.functions.zip descriptors) (lists .functions)
  properties : ∃ descriptors : List PropertyDescriptor,
    List.Forall₂ IndexedProperty.Describes index.properties descriptors ∧
      List.Forall₂ (fun x id => ∃ e, c.IsProperty x e ∧ b.get? id = some e)
        (index.properties.zip descriptors) (lists .properties)
  nodup (l : MemberList) : (lists l).Nodup
  listed {l : MemberList} {i : Nat} {id : ElementId} : (lists l)[i]? = some id →
    ∃ e, b.get? id = some e ∧ e.StandsAt c.owner l i
  complete {id : ElementId} {e : Element} : b.get? id = some e → e.owner? = some c.owner →
    ∃ l, id ∈ lists l

/-- What belongs to the class or file is in the list for its kind. -/
theorem Contents.mem_list {lists : MemberList → List ElementId} (h : c.Contents index b lists)
    {id : ElementId} {e : Element} (he : b.get? id = some e) (howner : e.owner? = some c.owner)
    {l : MemberList} (hl : e.list? = some l) : id ∈ lists l := by
  obtain ⟨l', hl'⟩ := h.complete he howner
  obtain ⟨i, hi⟩ := List.mem_iff_getElem?.mp hl'
  obtain ⟨e', he', hstands⟩ := h.listed hi
  obtain rfl := Option.some.inj (he.symm.trans he')
  exact Option.some.inj (hl.symm.trans hstands.list) ▸ hl'

/-- The lists of a class or file. -/
def memberLists (constructors functions properties typeParameters enumEntries : List ElementId) :
    MemberList → List ElementId
  | .constructors => constructors
  | .functions => functions
  | .properties => properties
  | .typeParameters => typeParameters
  | .enumEntries => enumEntries
  | .parameters => []

/-- What the lists hold where everything in the batch was made for them. -/
theorem contents_of_makes {o : Element} (ho : b.get? c.owner = some o)
    (honly : ∀ j e, b.get? j = some e → e.owner? = none)
    {constructors functions properties typeParameters enumEntries : List ElementId}
    (hmakes : b.Makes b'
      (typeParameters ++ constructors ++ functions ++ properties ++ enumEntries))
    {functionDescriptors : List FunctionDescriptor}
    {propertyDescriptors : List PropertyDescriptor}
    (hindex : index.Indexes functionDescriptors propertyDescriptors)
    (htypes : ∀ id ∈ typeParameters, ∃ p, b'.get? id = some (.typeParameter p) ∧ p.owner = c.owner)
    (hconstructors : ∀ id ∈ constructors, ∃ x found f, c.MadeConstructor index b' x id found f)
    (hfunctions : List.Forall₂ (fun x id => ∃ found f, c.MadeFunction index b' x id found f)
      (index.functions.zip functionDescriptors) functions)
    (hproperties : List.Forall₂ (fun x id => ∃ e, c.IsProperty x e ∧ b'.get? id = some e)
      (index.properties.zip propertyDescriptors) properties)
    (hentries : List.Forall₂ (fun x id => ∃ e, c.IsEnumEntry x e ∧ b'.get? id = some e)
      index.enumEntries.zipIdx enumEntries ∨ enumEntries = []) :
    c.Contents index b'
      (memberLists constructors functions properties typeParameters enumEntries) where
  functions := ⟨_, hindex.functions.length_eq, hfunctions⟩
  properties := ⟨_, hindex.properties, hproperties⟩
  nodup l := by
    have hnodup := hmakes.nodup
    simp only [List.nodup_append] at hnodup
    cases l <;> simp [memberLists, hnodup]
  listed {l i id} hid := by
    have hmem := List.mem_of_getElem? hid
    cases l with
    | constructors =>
      obtain ⟨x, found, f, hmade⟩ := hconstructors id hmem
      exact ⟨_, hmade.get?_eq, hmade.standsAt i⟩
    | functions =>
      obtain ⟨x, -, found, f, hmade⟩ := exists_of_mem_forall₂ hfunctions hmem
      exact ⟨_, hmade.get?_eq, hmade.standsAt i⟩
    | properties =>
      obtain ⟨x, -, e, ⟨found, -, rfl⟩, he⟩ := exists_of_mem_forall₂ hproperties hmem
      exact ⟨_, he, rfl, rfl, by simp [Element.position?]⟩
    | typeParameters =>
      obtain ⟨p, hp, howner⟩ := htypes id hmem
      exact ⟨_, hp, rfl, congrArg some howner, by simp [Element.position?]⟩
    | enumEntries =>
      rcases hentries with hentries | rfl
      · obtain ⟨x, hx, e, ⟨host, -, rfl⟩, he⟩ := exists_getElem?_of_forall₂ hentries hid
        refine ⟨_, he, rfl, rfl, fun {n} hn => ?_⟩
        rw [List.getElem?_zipIdx] at hx
        obtain ⟨name, -, rfl⟩ := Option.map_eq_some_iff.mp hx
        simpa [Element.position?, enumEntryElement, eq_comm] using hn
      · cases hmem
    | parameters => cases hmem
  complete {id e} he howner := by
    rcases hmakes.mem_of_owner? he ho howner with he | hid
    · rw [honly id e he] at howner
      cases howner
    · simp only [List.mem_append] at hid
      rcases hid with (((hid | hid) | hid) | hid) | hid
      · exact ⟨.typeParameters, hid⟩
      · exact ⟨.constructors, hid⟩
      · exact ⟨.functions, hid⟩
      · exact ⟨.properties, hid⟩
      · exact ⟨.enumEntries, hid⟩

/-- The class or file lists its members without a change to them. -/
theorem Contents.modify {lists : MemberList → List ElementId} (h : c.Contents index b lists)
    {o : Element} (ho : b.get? c.owner = some o) (hc : o.isContainer) (change : Element → Element)
    (hchange : (change o).isContainer) : c.Contents index (b.modify c.owner change) lists where
  functions := by
    obtain ⟨descriptors, hlength, hall⟩ := h.functions
    refine ⟨descriptors, hlength, hall.imp fun x id hmade => ?_⟩
    obtain ⟨found, f, hmade⟩ := hmade
    exact ⟨found, f, hmade.modify ho hc change⟩
  properties := by
    obtain ⟨descriptors, hdescribes, hall⟩ := h.properties
    refine ⟨descriptors, hdescribes, hall.imp fun x id hmade => ?_⟩
    obtain ⟨e, hproperty, he⟩ := hmade
    refine ⟨e, hproperty, get?_modify_container ho hc he ?_ change⟩
    obtain ⟨found, -, rfl⟩ := hproperty
    rfl
  nodup := h.nodup
  listed hid := by
    obtain ⟨e, he, hstands⟩ := h.listed hid
    exact ⟨e, get?_modify_container ho hc he (Element.isContainer_of_owner? hstands.owner) change,
      hstands⟩
  complete {id e} he howner := by
    rw [Batch.get?_modify] at he
    split at he
    · rename_i hid
      rw [← hid, ho] at he
      obtain rfl := Option.some.inj he
      rw [Element.isContainer_of_owner? howner] at hchange
      cases hchange
    · exact h.complete he howner

/-- What holds of the batch of a class or file when all its elements are made. -/
structure Complete (c : Container) (b : Batch) : Prop where
  stage : ∃ index constructors functions,
    List.Forall₂ IndexedFunction.Describes index.functions functions ∧
      c.Stage index constructors functions b
  container : ∃ e, b.get? c.owner = some e ∧ e.isContainer ∧ e.hostForms = [c.decl] ∧
    ∀ ids, e.typeParameters? = some ids → ∃ descriptors,
      (c.host.typeParameters c.decl).length = descriptors.length ∧
        b.LinesUp ids (c.typeParameterElements c.owner c.decl descriptors)
  contents : ∃ index e, c.host.index? c.decl = some index ∧ b.get? c.owner = some e ∧
    c.Contents index b e.listed

/-- A class or file that lists its members now. -/
theorem Stage.close (hst : c.Stage index constructors functions b) {e : Element}
    (he : b.get? c.owner = some e) (hc : e.isContainer) (change : Element → Element)
    (hforms : ∀ e, (change e).hostForms = e.hostForms)
    (howner : ∀ e, (change e).owner? = e.owner?) (hchange : (change e).isContainer)
    (hrefs : ∀ j ∈ (change e).references, ∃ e', b.get? j = some e') :
    c.Stage index constructors functions (b.modify c.owner change) := by
  refine ⟨?_, (Batch.claims_modify _ _ _).symm ▸ hst.own, fun {j e'} he' => ?_⟩
  · apply hst.sound.modify hforms howner
    intro e' he'
    obtain rfl := Option.some.inj (he.symm.trans he')
    exact hrefs
  · rw [Batch.get?_modify] at he'
    by_cases hj : c.owner = j
    · subst hj
      rw [if_pos rfl, he] at he'
      obtain rfl := Option.some.inj he'
      cases hch : change e <;> first | exact rfl | simp [hch, Element.isContainer] at hchange
    · rw [if_neg hj] at he'
      exact (hst.accounted he').modify he hc change

/-- The type parameters that elements are made for are claimed. -/
theorem claimed_of_typeParameterElements (hsound : b.Sound c.host c.decl) {owner : ElementId}
    {decl d : DeclId} {descriptors : List TypeParameterDescriptor} {ids : List ElementId}
    (hlines : b.LinesUp ids (c.typeParameterElements owner decl descriptors))
    (hlength : (c.host.typeParameters decl).length = descriptors.length)
    (hd : d ∈ c.host.typeParameters decl) : ∃ id, b.claims.find? d = some id := by
  rw [← List.map_fst_zip (Nat.le_of_eq hlength)] at hd
  obtain ⟨x, hx, rfl⟩ := List.mem_map.mp hd
  obtain ⟨id, -, hid⟩ := hlines.exists_of_mem_right (List.mem_map_of_mem hx)
  exact ⟨id, hsound.claimed.mpr ⟨_, hid, List.mem_singleton_self _⟩⟩

/-- A class or file before its members are made. -/
theorem Stage.start {base : Nat} {id : ElementId} {e : Element} (hc : e.isContainer)
    (hforms : e.hostForms = [c.decl]) (hrefs : e.references = []) (hid : c.owner = id)
    (hadd : BuildM.Added { base } e id b) : c.Stage index constructors functions b := by
  refine ⟨(Batch.sound_begin base).added hadd (by simp [hrefs]) (fun d hd => .inl ?_), ?_,
    fun {j e'} he => ?_⟩
  · exact List.mem_singleton.mp (hforms ▸ hd)
  · rw [hadd.claims, if_pos (hforms ▸ List.mem_singleton_self _), hid]
  · rw [hadd.get?] at he
    split at he
    · obtain rfl := Option.some.inj he
      rename_i hj
      cases e <;> first | exact hj.trans hid.symm | cases hc
    · simp [Batch.get?] at he

/-- Before the members are made nothing belongs to anything else. -/
theorem owner?_of_added {base : Nat} {id : ElementId} {e : Element} (hc : e.isContainer)
    (hadd : BuildM.Added { base } e id b) (j : ElementId) (e' : Element)
    (he : b.get? j = some e') : e'.owner? = none := by
  rw [hadd.get?] at he
  split at he
  · obtain rfl := Option.some.inj he
    cases e <;> first | rfl | cases hc
  · simp [Batch.get?] at he

/-- Type parameters make no functions or constructors. -/
private theorem Stage.typeParameters_ok (linked : c.host.Linked)
    (hst : c.Stage index constructors functions b) (hkind : (c.host.kind c.decl).isType)
    {strings : StringTable} {descriptors : List TypeParameterDescriptor} {ids : List ElementId}
    (h : c.buildTypeParameters strings c.decl c.owner descriptors b = .ok (ids, b')) :
    c.Stage index constructors functions b' ∧ b.Makes b' ids ∧
      (c.host.typeParameters c.decl).length = descriptors.length ∧
      b'.LinesUp ids (c.typeParameterElements c.owner c.decl descriptors) := by
  obtain ⟨e, he⟩ := hst.get?_owner
  obtain ⟨hsound, hmakes, hlength, hlines, hnew⟩ := buildTypeParameters_ok linked he
    ⟨_, hst.own⟩ (.inl hkind) hst.sound h
  refine ⟨hst.extend hsound hmakes.toExtends fun j e' he' => ?_, hmakes, hlength, hlines⟩
  rcases hnew j e' he' with he' | ⟨p, rfl, howner, hhost, -⟩
  · exact .inl he'
  · exact .inr (.inl ⟨howner, hhost⟩)

private theorem buildDeclaredConstructors_ok (linked : c.host.Linked) {metadata : ClassMetadata}
    (hst : c.Stage index metadata.descriptor.constructors functions b) {ids : List ElementId}
    (h : c.buildDeclaredConstructors index metadata b = .ok (ids, b')) :
    c.Stage index metadata.descriptor.constructors functions b' ∧ b.Makes b' ids ∧
      c.Constructs index metadata b' ids := by
  unfold buildDeclaredConstructors at h
  split at h
  · rename_i hkind
    obtain ⟨rfl, rfl⟩ := BuildM.pure_eq_ok_iff.mp h
    have hnone : index.constructors.zip metadata.declaredConstructors = [] := by
      rw [ClassMetadata.declaredConstructors, if_pos hkind, List.zip_nil_right]
    refine ⟨hst, .refl _, .inl hnone, ?_⟩
    rw [hnone]
    exact .nil
  · rename_i hkind
    obtain ⟨hst', hmakes, hprimary, hall⟩ := buildConstructors_ok linked hst h
    have hdeclared : metadata.declaredConstructors = metadata.descriptor.constructors :=
      if_neg hkind
    exact ⟨hst', hmakes, hdeclared ▸ hprimary, hdeclared ▸ hall⟩

/-- The class lists its members, and its constructors the primary one first. -/
theorem buildTypeMembers_ok (linked : c.host.Linked) (hkind : (c.host.kind c.decl).isType)
    {metadata : ClassMetadata} (hindex? : c.host.index? c.decl = some index)
    (hindex : index.Indexes metadata.descriptor.functions metadata.descriptor.properties)
    (hst : c.Stage index metadata.descriptor.constructors metadata.descriptor.functions b)
    {e : TypeElement} (he : b.get? c.owner = some (.type e))
    (honly : ∀ j e, b.get? j = some e → e.owner? = none)
    (hforms : (Element.type e).hostForms = [c.decl]) {id : ElementId}
    (h : c.buildTypeMembers index metadata b = .ok (id, b')) : id = c.owner ∧ c.Complete b' ∧
      ∃ e', b'.get? c.owner = some (.type e') ∧ e'.kind = e.kind ∧
        e'.companionName = e.companionName ∧ c.Constructs index metadata b' e'.constructors := by
  obtain ⟨typeParameters, b₁, htypes, h₁⟩ := BuildM.bind_eq_ok_iff.mp h
  obtain ⟨constructors, b₂, hconstructors, h₂⟩ := BuildM.bind_eq_ok_iff.mp h₁
  obtain ⟨functions, b₃, hfunctions, h₃⟩ := BuildM.bind_eq_ok_iff.mp h₂
  obtain ⟨properties, b₄, hproperties, h₄⟩ := BuildM.bind_eq_ok_iff.mp h₃
  obtain ⟨enumEntries, b₅, hentries, h₅⟩ := BuildM.bind_eq_ok_iff.mp h₄
  obtain ⟨v, b₆, hmodify, h₆⟩ := BuildM.bind_eq_ok_iff.mp h₅
  obtain ⟨rfl, rfl⟩ := BuildM.pure_eq_ok_iff.mp h₆
  obtain rfl := (Prod.mk.inj (Except.ok.inj hmodify)).2
  obtain ⟨hst₁, hmakes₁, hlength, hlines⟩ := hst.typeParameters_ok linked hkind htypes
  obtain ⟨hst₂, hmakes₂, hcons⟩ := buildDeclaredConstructors_ok linked hst₁ hconstructors
  obtain ⟨hst₃, hmakes₃, hfuns⟩ := buildFunctions_ok linked hst₂ hfunctions
  obtain ⟨hst₄, hmakes₄, hprops⟩ := buildProperties_ok linked hst₃ hproperties
  obtain ⟨hst₅, hmakes₅, hents⟩ := buildEnumEntries_ok linked hst₄ hentries
  have hmakes := (((hmakes₁.trans hmakes₂).trans hmakes₃).trans hmakes₄).trans hmakes₅
  have hext₃₅ := ((hmakes₃.trans hmakes₄).trans hmakes₅).toExtends
  have hlines := hlines.mono (hmakes₂.toExtends.trans hext₃₅)
  have he₅ := hmakes.element he
  have hcontents := contents_of_makes he honly hmakes hindex
    (fun id hid => by
      obtain ⟨e, hmem, he⟩ := hlines.exists_of_mem hid
      obtain ⟨x, -, rfl⟩ := List.mem_map.mp hmem
      exact ⟨_, he, rfl⟩)
    (fun id hid => by
      obtain ⟨x, -, found, f, hmade⟩ := exists_of_mem_forall₂ hcons.made hid
      exact ⟨x, found, f, hmade.mono hext₃₅⟩)
    (hfuns.imp fun x id ⟨found, f, hmade⟩ =>
      ⟨found, f, hmade.mono (hmakes₄.trans hmakes₅).toExtends⟩)
    (hprops.imp fun x id ⟨e, hproperty, he⟩ => ⟨e, hproperty, hmakes₅.element he⟩) (.inl hents)
  have hst' := hst₅.close he₅ rfl
    (listType constructors functions properties typeParameters enumEntries)
    (fun e => by cases e <;> rfl) (fun e => by cases e <;> rfl) rfl fun j hj => hmakes.made (by
      simp only [listType, Element.references, List.mem_append] at hj ⊢
      tauto)
  refine ⟨rfl, ⟨⟨_, _, _, hindex.functions, hst'⟩, ⟨_, Batch.get?_modify_self he₅ _, rfl, hforms,
    fun ids hids => ⟨_, hlength, ?_⟩⟩, index, _, hindex?, Batch.get?_modify_self he₅ _, ?_⟩,
    _, Batch.get?_modify_self he₅ _, rfl, rfl, (hcons.mono hext₃₅).modify he₅ rfl _⟩
  · obtain rfl : typeParameters = ids := Option.some.inj hids
    apply hlines.modify he₅
    exact fun hm => Bool.false_ne_true (isLeaf_of_mem_typeParameterElements hm)
  · have hlists : (listType constructors functions properties typeParameters enumEntries
        (.type e)).listed =
        memberLists constructors functions properties typeParameters enumEntries := by
      funext l
      cases l <;> rfl
    rw [hlists]
    exact hcontents.modify he₅ rfl _ rfl

theorem buildFileMembers_ok (linked : c.host.Linked) {metadata : PackageMetadata}
    (hindex? : c.host.index? c.decl = some index)
    (hindex : index.Indexes metadata.descriptor.functions metadata.descriptor.properties)
    (hst : c.Stage index [] metadata.descriptor.functions b)
    {e : FileFacadeElement} (he : b.get? c.owner = some (.fileFacade e))
    (honly : ∀ j e, b.get? j = some e → e.owner? = none)
    (hforms : (Element.fileFacade e).hostForms = [c.decl]) {id : ElementId}
    (h : c.buildFileMembers index metadata b = .ok (id, b')) :
    id = c.owner ∧ c.Complete b' ∧ ∃ e', b'.get? c.owner = some (.fileFacade e') := by
  obtain ⟨functions, b₁, hfunctions, h₁⟩ := BuildM.bind_eq_ok_iff.mp h
  obtain ⟨properties, b₂, hproperties, h₂⟩ := BuildM.bind_eq_ok_iff.mp h₁
  obtain ⟨v, b₃, hmodify, h₃⟩ := BuildM.bind_eq_ok_iff.mp h₂
  obtain ⟨rfl, rfl⟩ := BuildM.pure_eq_ok_iff.mp h₃
  obtain rfl := (Prod.mk.inj (Except.ok.inj hmodify)).2
  obtain ⟨hst₁, hmakes₁, hfuns⟩ := buildFunctions_ok linked hst hfunctions
  obtain ⟨hst₂, hmakes₂, hprops⟩ := buildProperties_ok linked hst₁ hproperties
  have hmakes := hmakes₁.trans hmakes₂
  have he₂ := hmakes.element he
  have hmakes' : b.Makes b₂ ([] ++ [] ++ functions ++ properties ++ []) := by simpa using hmakes
  have hcontents := contents_of_makes he honly hmakes' hindex (by simp) (by simp)
    (hfuns.imp fun x id ⟨found, f, hmade⟩ => ⟨found, f, hmade.mono hmakes₂.toExtends⟩) hprops
    (.inr rfl)
  have hst' := hst₂.close he₂ rfl (listFileFacade functions properties)
    (fun e => by cases e <;> rfl) (fun e => by cases e <;> rfl) rfl fun j hj => hmakes.made hj
  refine ⟨rfl, ⟨⟨_, _, _, hindex.functions, hst'⟩, ⟨_, Batch.get?_modify_self he₂ _, rfl, hforms,
    fun ids hids => by cases hids⟩, index, _, hindex?, Batch.get?_modify_self he₂ _, ?_⟩,
    _, Batch.get?_modify_self he₂ _⟩
  have hlists : (listFileFacade functions properties (.fileFacade e)).listed =
      memberLists [] functions properties [] [] := by
    funext l
    cases l <;> rfl
  rw [hlists]
  exact hcontents.modify he₂ rfl _ rfl

end Container

namespace Building

/-- The class before its members are made, with the index of its descriptors. -/
def typeHeader (host : Host) (config : Config) (decl : DeclId) (metadata : ClassMetadata) :
    Except ResolveError (DescriptorIndex × TypeElement) := do
  let d := metadata.descriptor
  let strings := metadata.strings
  let recordedName ← strings.read d.qualifiedName
  let qualifiedName := recordedName.map fun c => if c = '/' then '.' else c
  if config.checkQualifiedNames && qualifiedName ≠ host.qualifiedName decl then
    throw (.qualifiedNameMismatch (host.qualifiedName decl) qualifiedName)
  if (host.enclosed decl).any fun id => (host.kind id).isInitializer then
    throw (.initializerInSourceType (host.describe decl))
  let index ← DescriptorIndex.ofClass (host.describe decl) metadata
  let mangler ← mangler config strings d.moduleName
  let companionName ← strings.read? d.companionName
  return (index,
    { host := decl, qualifiedName, packageName := packageName recordedName, kind := d.kind,
      modality := d.modality, visibility := d.visibility, flags := d.flags, companionName,
      manglingSuffix := mangler.suffix })

/-- The file before its members are made, with the index of its descriptors. -/
def fileHeader (host : Host) (config : Config) (decl : DeclId) (metadata : PackageMetadata) :
    Except ResolveError (DescriptorIndex × FileFacadeElement) := do
  let index ← DescriptorIndex.ofPackage (host.describe decl) metadata
  let mangler ← mangler config metadata.strings metadata.descriptor.moduleName
  return (index,
    { host := decl, qualifiedName := host.qualifiedName decl, manglingSuffix := mangler.suffix })

theorem buildType_eq (host : Host) (config : Config) (decl : DeclId) (metadata : ClassMetadata) :
    buildType host config decl metadata = (do
      let (index, e) ← typeHeader host config decl metadata
      let id ← BuildM.add host (.type e)
      Container.buildTypeMembers ⟨host, decl, id, config.verifyAccessorShapes⟩ index metadata) := by
  simp only [buildType, typeHeader, liftM_bind, bind_assoc]
  congr 1
  funext recordedName
  split
  · rfl
  · split
    · rfl
    · by_cases hkind : metadata.descriptor.kind = .annotationType
      · simp [BuildM.add, BuildM.claimAll, Element.hostForms, Container.buildTypeMembers,
          Container.buildDeclaredConstructors, hkind]
        rfl
      · simp [BuildM.add, BuildM.claimAll, Element.hostForms, Container.buildTypeMembers,
          Container.buildDeclaredConstructors, hkind]
        rfl

theorem buildFileFacade_eq (host : Host) (config : Config) (decl : DeclId)
    (metadata : PackageMetadata) :
    buildFileFacade host config decl metadata = (do
      let (index, e) ← fileHeader host config decl metadata
      let id ← BuildM.add host (.fileFacade e)
      Container.buildFileMembers ⟨host, decl, id, config.verifyAccessorShapes⟩ index metadata) := by
  simp [buildFileFacade, fileHeader, liftM_bind, BuildM.add, BuildM.claimAll, Element.hostForms,
    Container.buildFileMembers]
  rfl

variable {host : Host} {config : Config} {decl : DeclId} {base : Nat} {id : ElementId} {b : Batch}

theorem typeHeader_ok {metadata : ClassMetadata} {index : DescriptorIndex} {e : TypeElement}
    (h : typeHeader host config decl metadata = .ok (index, e)) :
    DescriptorIndex.ofClass (host.describe decl) metadata = .ok index ∧
      e.kind = metadata.descriptor.kind ∧
      metadata.strings.read? metadata.descriptor.companionName = .ok e.companionName ∧
      (Element.type e).hostForms = [decl] ∧ (Element.type e).references = [] := by
  obtain ⟨recordedName, -, h⟩ := Except.bind_eq_ok_iff.mp h
  dsimp only at h
  split at h
  · cases h
  split at h
  · cases h
  obtain ⟨index', hindex, h⟩ := Except.bind_eq_ok_iff.mp h
  obtain ⟨mangler, -, h⟩ := Except.bind_eq_ok_iff.mp h
  obtain ⟨companionName, hcompanion, h⟩ := Except.bind_eq_ok_iff.mp h
  obtain ⟨rfl, rfl⟩ := Prod.mk.inj (Except.ok.inj h)
  exact ⟨hindex, rfl, hcompanion, rfl, rfl⟩

theorem fileHeader_ok {metadata : PackageMetadata} {index : DescriptorIndex}
    {e : FileFacadeElement} (h : fileHeader host config decl metadata = .ok (index, e)) :
    DescriptorIndex.ofPackage (host.describe decl) metadata = .ok index ∧
      (Element.fileFacade e).hostForms = [decl] ∧ (Element.fileFacade e).references = [] := by
  obtain ⟨index', hindex, h⟩ := Except.bind_eq_ok_iff.mp h
  obtain ⟨mangler, -, h⟩ := Except.bind_eq_ok_iff.mp h
  obtain ⟨rfl, rfl⟩ := Prod.mk.inj (Except.ok.inj h)
  exact ⟨hindex, rfl, rfl⟩

theorem buildType_ok (linked : host.Linked) (hkind : (host.kind decl).isType)
    {metadata : ClassMetadata} (hmetadata : host.metadata decl = some (.ofClass metadata))
    (h : buildType host config decl metadata { base } = .ok (id, b)) :
    id = ⟨base⟩ ∧ Container.Complete ⟨host, decl, id, config.verifyAccessorShapes⟩ b ∧
      ∃ index e, DescriptorIndex.ofClass (host.describe decl) metadata = .ok index ∧
        b.get? id = some (.type e) ∧ e.kind = metadata.descriptor.kind ∧
        metadata.strings.read? metadata.descriptor.companionName = .ok e.companionName ∧
        Container.Constructs ⟨host, decl, id, config.verifyAccessorShapes⟩ index metadata b
          e.constructors := by
  rw [buildType_eq] at h
  obtain ⟨⟨index, e⟩, b₀, hlift, h⟩ := BuildM.bind_eq_ok_iff.mp h
  obtain ⟨hheader, rfl⟩ := BuildM.lift_eq_ok_iff.mp hlift
  obtain ⟨hindex, hkind', hcompanion, hforms, hrefs⟩ := typeHeader_ok hheader
  obtain ⟨owner, b₁, hadd, h⟩ := BuildM.bind_eq_ok_iff.mp h
  have added := BuildM.add_eq_ok host hadd
  obtain ⟨rfl, hcomplete, e', he', hsame, hname, hconstructs⟩ := Container.buildTypeMembers_ok linked hkind
    (by simp [Host.index?, hmetadata, hindex, Except.toOption])
    (DescriptorIndex.indexes_ofClass hindex) (.start rfl hforms hrefs rfl added)
    (by rw [added.get?, if_pos rfl]) (Container.owner?_of_added rfl added) hforms h
  exact ⟨added.id_eq, hcomplete, index, e', hindex, he', hsame.trans hkind', hname ▸ hcompanion,
    hconstructs⟩

theorem buildFileFacade_ok (linked : host.Linked) {metadata : PackageMetadata}
    (hmetadata : host.metadata decl = some (.fileFacade metadata))
    (h : buildFileFacade host config decl metadata { base } = .ok (id, b)) :
    id = ⟨base⟩ ∧ Container.Complete ⟨host, decl, id, config.verifyAccessorShapes⟩ b ∧
      ∃ e, b.get? id = some (.fileFacade e) := by
  rw [buildFileFacade_eq] at h
  obtain ⟨⟨index, e⟩, b₀, hlift, h⟩ := BuildM.bind_eq_ok_iff.mp h
  obtain ⟨hheader, rfl⟩ := BuildM.lift_eq_ok_iff.mp hlift
  obtain ⟨hindex, hforms, hrefs⟩ := fileHeader_ok hheader
  obtain ⟨owner, b₁, hadd, h⟩ := BuildM.bind_eq_ok_iff.mp h
  have added := BuildM.add_eq_ok host hadd
  obtain ⟨rfl, hcomplete, he⟩ := Container.buildFileMembers_ok linked
    (by simp [Host.index?, hmetadata, hindex, Except.toOption])
    (DescriptorIndex.indexes_ofPackage hindex) (.start rfl hforms hrefs rfl added)
    (by rw [added.get?, if_pos rfl]) (Container.owner?_of_added rfl added) hforms h
  exact ⟨added.id_eq, hcomplete, he⟩

end Building

end Correspondence
