import Correspondence.Proofs.Parameters

/-!
# Building functions and constructors

Every function and constructor of a batch is made from a descriptor and the match that was found for
it, and lists the elements of the parameters of that match.
-/

namespace Correspondence

/-- Whether an element lists no others. -/
def Element.isLeaf : Element → Bool
  | .property _ | .parameter _ | .typeParameter _ | .enumEntry _ => true
  | _ => false

/-- Whether an element is a class or a file. -/
def Element.isContainer : Element → Bool
  | .type _ | .fileFacade _ => true
  | _ => false

/-- Whether an element may stand for declarations of a kind. -/
def Element.admits : Element → DeclKind → Bool
  | .package _, kind => kind = .package
  | .type _, kind | .fileFacade _, kind => kind.isType
  | .function _, kind => kind = .method
  | .constructor _, kind => kind = .constructor
  | .property _, kind => kind = .field || kind = .method
  | .parameter _, kind => kind = .parameter
  | .typeParameter _, kind => kind = .typeParameter
  | .enumEntry _, kind => kind = .enumConstant
  | .implicit _, _ => true

theorem Element.isContainer_of_owner? {e : Element} {owner : ElementId}
    (h : e.owner? = some owner) : e.isContainer = false := by
  cases e <;> first | rfl | cases h

namespace Container

variable {c : Container} {index : DescriptorIndex} {b b' : Batch}

/-- The matcher for the members of a kind. -/
def matcher (c : Container) (kind : DeclKind) (index : DescriptorIndex) : MemberMatcher :=
  { host := c.host, owner := c.decl, kind, index := some index }

/-- The elements of the value parameters of a match. -/
def parameterElements (owner : ElementId) (found : MemberMatch) (params : List IndexedParameter) :
    List Element :=
  (found.parameters.zip params).zipIdx.map (parameterElement owner)

/-- The elements of the type parameters of a compiled declaration. -/
def typeParameterElements (c : Container) (owner : ElementId) (decl : DeclId)
    (descriptors : List TypeParameterDescriptor) : List Element :=
  ((c.host.typeParameters decl).zip descriptors).map (c.typeParameterElement owner)

/-- Lets a function list its parameters. -/
def listFunction (parameters typeParameters : List ElementId) : Element → Element
  | .function e => .function { e with parameters, typeParameters }
  | e => e

/-- Lets a constructor list its parameters. -/
def listConstructor (parameters : List ElementId) : Element → Element
  | .constructor e => .constructor { e with parameters }
  | e => e

/-- The function that a descriptor and its match are made into, with the given parameters. -/
def functionElement (c : Container) (found : MemberMatch)
    (x : IndexedFunction × FunctionDescriptor) (parameters typeParameters : List ElementId) :
    FunctionElement :=
  { host := found.host, overloads := found.overloads, owner := c.owner, name := x.1.name,
    signature := x.1.signature, modality := x.2.modality, visibility := x.2.visibility,
    flags := x.2.flags, isExtension := x.2.receiver.isSome, parameters, typeParameters }

/-- The constructor that a descriptor and its match are made into, with the given parameters. -/
def constructorElement (c : Container) (found : MemberMatch)
    (x : IndexedConstructor × ConstructorDescriptor) (parameters : List ElementId) :
    ConstructorElement :=
  { host := found.host, overloads := found.overloads, owner := c.owner, kind := x.2.kind,
    visibility := x.2.visibility, signature := x.1.signature, parameters }

/-- What a function of a batch is made of. -/
structure MadeFunction (c : Container) (index : DescriptorIndex) (b : Batch)
    (x : IndexedFunction × FunctionDescriptor) (id : ElementId) (found : MemberMatch)
    (f : FunctionElement) : Prop where
  find_eq : (c.matcher .method index).find (.ofFunction x.1) = .ok found
  get?_eq : b.get? id = some (.function f)
  eq : f = c.functionElement found x f.parameters f.typeParameters
  parameters : b.LinesUp f.parameters (parameterElements id found x.1.parameters)
  parameters_nodup : f.parameters.Nodup
  length_eq : (c.host.typeParameters found.host).length = x.2.typeParameters.length
  typeParameters :
    b.LinesUp f.typeParameters (c.typeParameterElements id found.host x.2.typeParameters)
  typeParameters_nodup : f.typeParameters.Nodup

/-- What a constructor of a batch is made of. -/
structure MadeConstructor (c : Container) (index : DescriptorIndex) (b : Batch)
    (x : IndexedConstructor × ConstructorDescriptor) (id : ElementId) (found : MemberMatch)
    (f : ConstructorElement) : Prop where
  find_eq : (c.matcher .constructor index).find (.ofConstructor x.1) = .ok found
  get?_eq : b.get? id = some (.constructor f)
  eq : f = c.constructorElement found x f.parameters
  parameters : b.LinesUp f.parameters (parameterElements id found x.1.parameters)
  parameters_nodup : f.parameters.Nodup
  typeParameters : c.host.typeParameters found.host = []

theorem MadeFunction.standsAt {x : IndexedFunction × FunctionDescriptor} {id : ElementId}
    {found : MemberMatch} {f : FunctionElement} (h : c.MadeFunction index b x id found f) (i : Nat) :
    (Element.function f).StandsAt c.owner .functions i where
  list := rfl
  owner := congrArg (fun f : FunctionElement => some f.owner) h.eq
  position hn := by cases hn

theorem MadeConstructor.standsAt {x : IndexedConstructor × ConstructorDescriptor} {id : ElementId}
    {found : MemberMatch} {f : ConstructorElement} (h : c.MadeConstructor index b x id found f)
    (i : Nat) : (Element.constructor f).StandsAt c.owner .constructors i where
  list := rfl
  owner := congrArg (fun f : ConstructorElement => some f.owner) h.eq
  position hn := by cases hn

theorem MadeFunction.mem_members {x : IndexedFunction × FunctionDescriptor} {id : ElementId}
    {found : MemberMatch} {f : FunctionElement} (h : c.MadeFunction index b x id found f) {d : DeclId}
    (hd : d ∈ (Element.function f).hostForms) : d ∈ c.host.members c.decl .method := by
  rw [h.eq] at hd
  exact (MemberMatcher.find_eq_ok h.find_eq).mem_members hd

theorem MadeConstructor.mem_members {x : IndexedConstructor × ConstructorDescriptor}
    {id : ElementId} {found : MemberMatch} {f : ConstructorElement}
    (h : c.MadeConstructor index b x id found f) {d : DeclId}
    (hd : d ∈ (Element.constructor f).hostForms) : d ∈ c.host.members c.decl .constructor := by
  rw [h.eq] at hd
  exact (MemberMatcher.find_eq_ok h.find_eq).mem_members hd

theorem MadeFunction.mono {x : IndexedFunction × FunctionDescriptor} {id : ElementId}
    {found : MemberMatch} {f : FunctionElement} (h : c.MadeFunction index b x id found f)
    (hb : b.Extends b') : c.MadeFunction index b' x id found f :=
  { h with
    get?_eq := hb.element h.get?_eq
    parameters := h.parameters.mono hb
    typeParameters := h.typeParameters.mono hb }

theorem MadeConstructor.mono {x : IndexedConstructor × ConstructorDescriptor} {id : ElementId}
    {found : MemberMatch} {f : ConstructorElement} (h : c.MadeConstructor index b x id found f)
    (hb : b.Extends b') : c.MadeConstructor index b' x id found f :=
  { h with
    get?_eq := hb.element h.get?_eq
    parameters := h.parameters.mono hb }

theorem isLeaf_of_mem_parameterElements {owner : ElementId} {found : MemberMatch}
    {params : List IndexedParameter} {e : Element} (h : e ∈ parameterElements owner found params) :
    e.isLeaf := by
  obtain ⟨x, -, rfl⟩ := List.mem_map.mp h
  rfl

theorem isLeaf_of_mem_typeParameterElements {owner : ElementId} {decl : DeclId}
    {descriptors : List TypeParameterDescriptor} {e : Element}
    (h : e ∈ c.typeParameterElements owner decl descriptors) : e.isLeaf := by
  obtain ⟨x, -, rfl⟩ := List.mem_map.mp h
  rfl

/-- Changing a class or file leaves any other element as it is. -/
theorem get?_modify_container {id owner : ElementId} {e o : Element}
    (ho : b.get? owner = some o) (hc : o.isContainer) (he : b.get? id = some e)
    (hne : e.isContainer = false) (change : Element → Element) :
    (b.modify owner change).get? id = some e := by
  have hne : owner ≠ id := by
    rintro rfl
    obtain rfl := Option.some.inj (ho.symm.trans he)
    simp [hc] at hne
  rw [Batch.get?_modify, if_neg hne, he]

private theorem linesUp_modify_container {owner : ElementId} {o : Element} {ids : List ElementId}
    {es : List Element} (ho : b.get? owner = some o) (hc : o.isContainer) (h : b.LinesUp ids es)
    (hleaf : ∀ e ∈ es, e.isLeaf) (change : Element → Element) :
    (b.modify owner change).LinesUp ids es := by
  apply h.modify ho
  intro hmem
  have := hleaf o hmem
  cases o <;> simp_all [Element.isLeaf, Element.isContainer]

theorem MadeFunction.modify {x : IndexedFunction × FunctionDescriptor} {id owner : ElementId}
    {found : MemberMatch} {f : FunctionElement} (h : c.MadeFunction index b x id found f)
    {e : Element} (he : b.get? owner = some e) (hc : e.isContainer) (change : Element → Element) :
    c.MadeFunction index (b.modify owner change) x id found f :=
  { h with
    get?_eq := get?_modify_container he hc h.get?_eq rfl change
    parameters := linesUp_modify_container he hc h.parameters
      (fun _ => isLeaf_of_mem_parameterElements) change
    typeParameters := linesUp_modify_container he hc h.typeParameters
      (fun _ => isLeaf_of_mem_typeParameterElements) change }

theorem MadeConstructor.modify {x : IndexedConstructor × ConstructorDescriptor}
    {id owner : ElementId} {found : MemberMatch} {f : ConstructorElement}
    (h : c.MadeConstructor index b x id found f) {e : Element} (he : b.get? owner = some e)
    (hc : e.isContainer) (change : Element → Element) :
    c.MadeConstructor index (b.modify owner change) x id found f :=
  { h with
    get?_eq := get?_modify_container he hc h.get?_eq rfl change
    parameters := linesUp_modify_container he hc h.parameters
      (fun _ => isLeaf_of_mem_parameterElements) change }

/-- Whether an element is a member without parameters that stands for compiled members only. -/
structure IsPlainMember (c : Container) (e : Element) : Prop where
  kind : (∃ p, e = .property p) ∨ ∃ p, e = .enumEntry p
  references : e.references = [c.owner]
  hosts {d : DeclId} : d ∈ e.hostForms →
    d ∈ c.host.enclosed c.decl ∧ e.admits (c.host.kind d)

theorem IsPlainMember.owner? {e : Element} (h : c.IsPlainMember e) : e.owner? = some c.owner := by
  have hrefs := h.references
  rcases h.kind with ⟨p, rfl⟩ | ⟨p, rfl⟩
  · exact congrArg some (List.cons.inj hrefs).1
  · exact congrArg some (List.cons.inj hrefs).1

/-- What is known of an element of a batch by its kind: a function or constructor is made from a
descriptor and its match, parameters are listed by what they belong to, and other members stand for
compiled members. -/
def Accounted (c : Container) (index : DescriptorIndex) (constructors : List ConstructorDescriptor)
    (functions : List FunctionDescriptor) (b : Batch) (id : ElementId) : Element → Prop
  | .function f =>
    ∃ x ∈ index.functions.zip functions, ∃ found, c.MadeFunction index b x id found f
  | .constructor f =>
    ∃ x ∈ index.constructors.zip constructors, ∃ found, c.MadeConstructor index b x id found f
  | .parameter p => ∃ e ids, b.get? p.owner = some e ∧ e.parameters? = some ids ∧ id ∈ ids
  | .typeParameter p =>
    p.owner = c.owner ∧ p.host ∈ c.host.typeParameters c.decl ∨
      ∃ f, b.get? p.owner = some (.function f) ∧ id ∈ f.typeParameters
  | .property p => c.IsPlainMember (.property p)
  | .enumEntry p => c.IsPlainMember (.enumEntry p)
  | .type _ | .fileFacade _ => id = c.owner
  | .package _ | .implicit _ => False

variable {constructors : List ConstructorDescriptor} {functions : List FunctionDescriptor}

theorem Accounted.eq_owner {id : ElementId} {e : Element}
    (h : c.Accounted index constructors functions b id e) (hc : e.isContainer) : id = c.owner := by
  cases e <;> first | exact h | cases hc

theorem Accounted.mono {id : ElementId} {e : Element}
    (h : c.Accounted index constructors functions b id e) (hb : b.Extends b') :
    c.Accounted index constructors functions b' id e := by
  cases e with
  | function f =>
    obtain ⟨x, hx, found, hmade⟩ := h
    exact ⟨x, hx, found, hmade.mono hb⟩
  | constructor f =>
    obtain ⟨x, hx, found, hmade⟩ := h
    exact ⟨x, hx, found, hmade.mono hb⟩
  | parameter p =>
    obtain ⟨e, ids, he, hids⟩ := h
    exact ⟨e, ids, hb.element he, hids⟩
  | typeParameter p =>
    rcases h with h | ⟨f, hf, hid⟩
    · exact .inl h
    · exact .inr ⟨f, hb.element hf, hid⟩
  | _ => exact h

/-- Changing a class or file leaves the other elements as they are. -/
theorem Accounted.modify {id owner : ElementId} {e o : Element}
    (h : c.Accounted index constructors functions b id e) (ho : b.get? owner = some o)
    (hc : o.isContainer) (change : Element → Element) :
    c.Accounted index constructors functions (b.modify owner change) id e := by
  cases e with
  | function f =>
    obtain ⟨x, hx, found, hmade⟩ := h
    exact ⟨x, hx, found, hmade.modify ho hc change⟩
  | constructor f =>
    obtain ⟨x, hx, found, hmade⟩ := h
    exact ⟨x, hx, found, hmade.modify ho hc change⟩
  | parameter p =>
    obtain ⟨e', ids, he', hids, hid⟩ := h
    have hne : e'.isContainer = false := by cases e' <;> first | rfl | cases hids
    exact ⟨e', ids, get?_modify_container ho hc he' hne change, hids, hid⟩
  | typeParameter p =>
    rcases h with h | ⟨f, hf, hid⟩
    · exact .inl h
    · exact .inr ⟨f, get?_modify_container ho hc hf rfl change, hid⟩
  | _ => exact h

/-- What holds of a batch while the members of a class or file are made. -/
structure Stage (c : Container) (index : DescriptorIndex)
    (constructors : List ConstructorDescriptor) (functions : List FunctionDescriptor) (b : Batch) :
    Prop where
  sound : b.Sound c.host c.decl
  own : b.claims.find? c.decl = some c.owner
  accounted {id : ElementId} {e : Element} : b.get? id = some e →
    c.Accounted index constructors functions b id e

theorem Stage.get?_owner (h : c.Stage index constructors functions b) :
    ∃ e, b.get? c.owner = some e := by
  obtain ⟨e, he, -⟩ := h.sound.claimed.mp h.own
  exact ⟨e, he⟩

/-- A stage with further elements. -/
theorem Stage.extend (h : c.Stage index constructors functions b)
    (hsound : b'.Sound c.host c.decl) (hext : b.Extends b')
    (hnew : ∀ j e, b'.get? j = some e →
      b.get? j = some e ∨ c.Accounted index constructors functions b' j e) :
    c.Stage index constructors functions b' := by
  refine ⟨hsound, hext.claim h.own, fun {id e} he => ?_⟩
  rcases hnew id e he with he | hacc
  · exact (h.accounted he).mono hext
  · exact hacc

/-- A function or constructor together with its value parameters, before it lists them. -/
private theorem executable_ok (linked : c.host.Linked)
    (hst : c.Stage index constructors functions b) {kind : DeclKind}
    (hkind : kind ∈ [DeclKind.method, .constructor]) {request : MatchRequest} {found : MemberMatch}
    (hfind : (c.matcher kind index).find request = .ok found) {e : Element}
    (hforms : e.hostForms = found.hosts) (hrefs : e.references = [c.owner]) {id : ElementId}
    {b₁ b₂ b₃ : Batch} {u : Unit} {params : List IndexedParameter} {ids : List ElementId}
    (hpush : BuildM.push e b = .ok (id, b₁))
    (hclaim : BuildM.claimAll c.host id found.hosts b₁ = .ok (u, b₂))
    (hparams : c.buildParameters id found params b₂ = .ok (ids, b₃)) :
    b.get? id = none ∧ b₃.Sound c.host c.decl ∧ b.Extends b₃ ∧ b₃.get? id = some e ∧
      b₃.LinesUp ids (parameterElements id found params) ∧ ids.Nodup ∧
      b₃.claims.find? found.host = some id ∧
      ∀ j e', b₃.get? j = some e' → j = id ∨ b.get? j = some e' ∨
        ∃ p, e' = .parameter p ∧ p.owner = id ∧ j ∈ ids := by
  have fits := MemberMatcher.find_eq_ok hfind
  have added := BuildM.added_of_claimAll hpush (hforms ▸ hclaim)
  have hsound := hst.sound.added added
    (fun j hj => by
      obtain rfl := List.mem_singleton.mp (hrefs ▸ hj)
      exact hst.get?_owner)
    (fun x hx => by
      obtain ⟨hmem, hk⟩ := List.mem_filter.mp (fits.mem_members (hforms ▸ hx))
      have hk : c.host.kind x = kind := of_decide_eq_true hk
      refine .inr ⟨c.decl, (linked.member hmem).1, ⟨_, hst.own⟩, .inl ?_⟩
      rw [hk]
      revert hkind
      simp only [List.mem_cons]
      tauto)
  have hget : b₂.get? id = some e := by rw [added.get?, if_pos rfl]
  have hhosts (x : DeclId) (hx : x ∈ found.hosts) : b₂.claims.find? x = some id := by
    rw [added.claims, if_pos (hforms ▸ hx)]
  obtain ⟨hsound', hmakes, hlines, hnew⟩ := buildParameters_ok linked rfl fits hget
    (fun x hx => ⟨id, hhosts x hx⟩) hsound hparams
  refine ⟨added.id_eq ▸ Batch.get?_next b, hsound', added.extends.trans hmakes.toExtends,
    hmakes.element hget, hlines, hmakes.nodup, hmakes.claim (hhosts _ List.mem_cons_self),
    fun j e' he' => ?_⟩
  rcases hnew j e' he' with he' | hparam
  · rw [added.get?] at he'
    split at he'
    · exact .inl (by assumption)
    · exact .inr (.inl he')
  · exact .inr (.inr hparam)

/-- A function or constructor that lists its parameters now. -/
private theorem Stage.listed (hst : c.Stage index constructors functions b) {id : ElementId}
    {e : Element} (hfresh : b.get? id = none) (hsound : b'.Sound c.host c.decl)
    (hext : b.Extends b') (hget : b'.get? id = some e) (change : Element → Element)
    (hforms : ∀ e, (change e).hostForms = e.hostForms)
    (howner : ∀ e, (change e).owner? = e.owner?)
    (hrefs : ∀ j ∈ (change e).references, ∃ e', b'.get? j = some e')
    (hnew : ∀ j e', b'.get? j = some e' → j = id ∨ b.get? j = some e' ∨
      c.Accounted index constructors functions (b'.modify id change) j e')
    (hacc : c.Accounted index constructors functions (b'.modify id change) id (change e)) :
    c.Stage index constructors functions (b'.modify id change) ∧
      b.Extends (b'.modify id change) := by
  have hextends := hext.modify hfresh change
  refine ⟨⟨?_, hextends.claim hst.own, fun {j e'} he => ?_⟩, hextends⟩
  · apply hsound.modify hforms howner
    intro e' he
    obtain rfl := Option.some.inj (hget.symm.trans he)
    exact hrefs
  · rw [Batch.get?_modify] at he
    by_cases hj : id = j
    · subst hj
      rw [if_pos rfl, hget] at he
      obtain rfl := Option.some.inj he
      exact hacc
    · rw [if_neg hj] at he
      rcases hnew j e' he with rfl | he | hnew
      · exact absurd rfl hj
      · exact (hst.accounted he).mono hextends
      · exact hnew

/-- A function or constructor is made with what belongs to it. -/
private theorem makes_executable {id : ElementId} {e : Element} (hfresh : b.get? id = none)
    (hget : b'.get? id = some e) {change : Element → Element} (hext : b.Extends (b'.modify id change))
    (hnew : ∀ j e', b'.get? j = some e' →
      j = id ∨ b.get? j = some e' ∨ e'.owner? = some id) : b.Makes (b'.modify id change) [id] where
  toExtends := hext
  nodup := List.nodup_singleton id
  fresh hid := List.mem_singleton.mp hid ▸ hfresh
  made hid := by
    rw [List.mem_singleton.mp hid]
    exact ⟨_, Batch.get?_modify_self hget change⟩
  new {j e'} he := by
    rw [Batch.get?_modify] at he
    split at he
    · rename_i hj
      exact .inr (.inl (List.mem_singleton.mpr hj.symm))
    · rcases hnew j e' he with hj | he | howner
      · exact .inr (.inl (List.mem_singleton.mpr hj))
      · exact .inl he
      · exact .inr (.inr ⟨id, List.mem_singleton_self id, howner⟩)

/-- One function, made from its descriptor and its match. -/
theorem buildFunction_ok (linked : c.host.Linked)
    (hst : c.Stage index constructors functions b) {strings : StringTable}
    {x : IndexedFunction × FunctionDescriptor} (hx : x ∈ index.functions.zip functions)
    {id : ElementId} (h : c.buildFunction index strings x b = .ok (id, b')) :
    c.Stage index constructors functions b' ∧ b.Makes b' [id] ∧
      ∃ found f, c.MadeFunction index b' x id found f := by
  obtain ⟨indexed, descriptor⟩ := x
  unfold buildFunction at h
  dsimp only at h
  split at h
  · exact absurd h BuildM.throw_ne_ok
  obtain ⟨found, b₀, hlift, h₀⟩ := BuildM.bind_eq_ok_iff.mp h
  obtain ⟨hmatch, rfl⟩ := BuildM.lift_eq_ok_iff.mp hlift
  have hfind : (c.matcher .method index).find (.ofFunction indexed) = .ok found := hmatch
  obtain ⟨id', b₁, hpush, h₁⟩ := BuildM.bind_eq_ok_iff.mp h₀
  obtain ⟨u, b₂, hclaim, h₂⟩ := BuildM.bind_eq_ok_iff.mp h₁
  obtain ⟨parameters, b₃, hparams, h₃⟩ := BuildM.bind_eq_ok_iff.mp h₂
  obtain ⟨typeParameters, b₄, htypes, h₄⟩ := BuildM.bind_eq_ok_iff.mp h₃
  obtain ⟨v, b₅, hmodify, h₅⟩ := BuildM.bind_eq_ok_iff.mp h₄
  obtain ⟨rfl, rfl⟩ := BuildM.pure_eq_ok_iff.mp h₅
  obtain rfl := (Prod.mk.inj (Except.ok.inj hmodify)).2
  obtain ⟨hfresh, hsound, hext, hget, hlines, hnodup, hhost, hnew⟩ := executable_ok linked hst (by simp)
    hfind (e := .function (c.functionElement found (indexed, descriptor) [] [])) rfl rfl hpush
    hclaim hparams
  have hkind : c.host.kind found.host = .method :=
    of_decide_eq_true (List.mem_filter.mp (MemberMatcher.find_eq_ok hfind).host_mem).2
  obtain ⟨hsound', htmakes, hlength, htlines, htnew⟩ := buildTypeParameters_ok linked hget
    ⟨_, hhost⟩ (.inr hkind) hsound htypes
  have hext' := hext.trans htmakes.toExtends
  have hget' := htmakes.element hget
  have hplines := hlines.mono htmakes.toExtends
  have hmade : c.MadeFunction index (b₄.modify id (listFunction parameters typeParameters))
      (indexed, descriptor) id found
      (c.functionElement found (indexed, descriptor) parameters typeParameters) := by
    refine ⟨hfind, ?_, rfl, ?_, hnodup, hlength, ?_, htmakes.nodup⟩
    · exact Batch.get?_modify_self hget' _
    · apply hplines.modify hget'
      exact fun hm => Bool.false_ne_true (isLeaf_of_mem_parameterElements hm)
    · apply htlines.modify hget'
      exact fun hm => Bool.false_ne_true (isLeaf_of_mem_typeParameterElements hm)
  have hrefs : ∀ j ∈ c.owner :: (parameters ++ typeParameters), ∃ e, b₄.get? j = some e := by
    intro j hj
    rcases List.mem_cons.mp hj with rfl | hj
    · obtain ⟨e, he⟩ := hst.get?_owner
      exact ⟨e, hext'.element he⟩
    · rcases List.mem_append.mp hj with hj | hj
      · exact hplines.exists_get? hj
      · exact htlines.exists_get? hj
  obtain ⟨hst', hextends⟩ := hst.listed hfresh hsound' hext' hget'
    (listFunction parameters typeParameters) (fun e => by cases e <;> rfl)
    (fun e => by cases e <;> rfl) hrefs
    (fun j e he => by
      rcases htnew j e he with he | ⟨p, rfl, rfl, -, hj⟩
      · rcases hnew j e he with hj | he | ⟨p, rfl, rfl, hj⟩
        · exact .inl hj
        · exact .inr (.inl he)
        · exact .inr (.inr ⟨_, parameters, hmade.get?_eq, rfl, hj⟩)
      · exact .inr (.inr (.inr ⟨_, hmade.get?_eq, hj⟩)))
    ⟨_, hx, found, hmade⟩
  refine ⟨hst', makes_executable hfresh hget' hextends fun j e he => ?_, found, _, hmade⟩
  rcases htnew j e he with he | ⟨p, rfl, rfl, -, -⟩
  · rcases hnew j e he with hj | he | ⟨p, rfl, rfl, -⟩
    · exact .inl hj
    · exact .inr (.inl he)
    · exact .inr (.inr rfl)
  · exact .inr (.inr rfl)

theorem buildConstructor_isPrimary {x : IndexedConstructor × ConstructorDescriptor} {primary : Bool}
    {id : ElementId} (h : c.buildConstructor index x b = .ok ((primary, id), b')) :
    primary = x.2.isPrimary := by
  obtain ⟨indexed, descriptor⟩ := x
  obtain ⟨found, b₀, -, h₀⟩ := BuildM.bind_eq_ok_iff.mp h
  split at h₀
  · exact absurd h₀ BuildM.throw_ne_ok
  obtain ⟨id', b₁, -, h₁⟩ := BuildM.bind_eq_ok_iff.mp h₀
  obtain ⟨u, b₂, -, h₂⟩ := BuildM.bind_eq_ok_iff.mp h₁
  obtain ⟨parameters, b₃, -, h₃⟩ := BuildM.bind_eq_ok_iff.mp h₂
  obtain ⟨v, b₄, -, h₄⟩ := BuildM.bind_eq_ok_iff.mp h₃
  exact (Prod.mk.inj (BuildM.pure_eq_ok_iff.mp h₄).1).1

/-- One constructor, made from its descriptor and its match. -/
theorem buildConstructor_ok (linked : c.host.Linked)
    (hst : c.Stage index constructors functions b)
    {x : IndexedConstructor × ConstructorDescriptor}
    (hx : x ∈ index.constructors.zip constructors) {primary : Bool} {id : ElementId}
    (h : c.buildConstructor index x b = .ok ((primary, id), b')) :
    c.Stage index constructors functions b' ∧ b.Makes b' [id] ∧
      ∃ found f, c.MadeConstructor index b' x id found f := by
  obtain ⟨indexed, descriptor⟩ := x
  obtain ⟨found, b₀, hlift, h₀⟩ := BuildM.bind_eq_ok_iff.mp h
  obtain ⟨hmatch, rfl⟩ := BuildM.lift_eq_ok_iff.mp hlift
  have hfind : (c.matcher .constructor index).find (.ofConstructor indexed) = .ok found := hmatch
  split at h₀
  · exact absurd h₀ BuildM.throw_ne_ok
  rename_i htypes
  obtain ⟨id', b₁, hpush, h₁⟩ := BuildM.bind_eq_ok_iff.mp h₀
  obtain ⟨u, b₂, hclaim, h₂⟩ := BuildM.bind_eq_ok_iff.mp h₁
  obtain ⟨parameters, b₃, hparams, h₃⟩ := BuildM.bind_eq_ok_iff.mp h₂
  obtain ⟨v, b₄, hmodify, h₄⟩ := BuildM.bind_eq_ok_iff.mp h₃
  obtain ⟨hres, rfl⟩ := BuildM.pure_eq_ok_iff.mp h₄
  obtain ⟨-, rfl⟩ := Prod.mk.inj hres
  obtain rfl := (Prod.mk.inj (Except.ok.inj hmodify)).2
  obtain ⟨hfresh, hsound, hext, hget, hlines, hnodup, hhost, hnew⟩ := executable_ok linked hst (by simp)
    hfind (e := .constructor (c.constructorElement found (indexed, descriptor) [])) rfl rfl hpush
    hclaim hparams
  have hmade : c.MadeConstructor index (b₃.modify id (listConstructor parameters))
      (indexed, descriptor) id found
      (c.constructorElement found (indexed, descriptor) parameters) := by
    refine ⟨hfind, ?_, rfl, ?_, hnodup, not_not.mp htypes⟩
    · exact Batch.get?_modify_self hget _
    · apply hlines.modify hget
      exact fun hm => Bool.false_ne_true (isLeaf_of_mem_parameterElements hm)
  obtain ⟨hst', hextends⟩ := hst.listed hfresh hsound hext hget
    (listConstructor parameters) (fun e => by cases e <;> rfl) (fun e => by cases e <;> rfl)
    (fun j hj => by
      rcases List.mem_cons.mp hj with rfl | hj
      · obtain ⟨e, he⟩ := hst.get?_owner
        exact ⟨e, hext.element he⟩
      · exact hlines.exists_get? hj)
    (fun j e he => by
      rcases hnew j e he with hj | he | ⟨p, rfl, rfl, hj⟩
      · exact .inl hj
      · exact .inr (.inl he)
      · exact .inr (.inr ⟨_, parameters, hmade.get?_eq, rfl, hj⟩))
    ⟨_, hx, found, hmade⟩
  refine ⟨hst', makes_executable hfresh hget hextends fun j e he => ?_, found, _, hmade⟩
  rcases hnew j e he with hj | he | ⟨p, rfl, rfl, -⟩
  · exact .inl hj
  · exact .inr (.inl he)
  · exact .inr (.inr rfl)

end Container

end Correspondence
