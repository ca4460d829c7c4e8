import Correspondence.Proofs.Runs

/-!
# Integrity

The elements of a complete batch fit together: their lists and their owners agree. A cache that
operations lead to consists of such batches, of packages and of what the source compiler made, so that
its elements fit together as well.
-/

namespace Correspondence

namespace Container

variable {c : Container} {index : DescriptorIndex} {b : Batch} {id : ElementId} {e : Element}

private theorem standsAt_of_parameterElements {found : MemberMatch}
    {params : List IndexedParameter} {i : Nat}
    (he : (parameterElements id found params)[i]? = some e) : e.StandsAt id .parameters i := by
  rw [parameterElements, List.getElem?_map, List.getElem?_zipIdx] at he
  obtain ⟨x, hx, rfl⟩ := Option.map_eq_some_iff.mp he
  obtain ⟨y, -, rfl⟩ := Option.map_eq_some_iff.mp hx
  exact ⟨rfl, rfl, fun hn => by simpa [parameterElement, Element.position?, eq_comm] using hn⟩

private theorem standsAt_of_typeParameterElements {decl : DeclId}
    {descriptors : List TypeParameterDescriptor} {i : Nat}
    (he : (c.typeParameterElements id decl descriptors)[i]? = some e) :
    e.StandsAt id .typeParameters i := by
  obtain ⟨x, -, rfl⟩ := List.mem_map.mp (List.mem_of_getElem? he)
  exact ⟨rfl, rfl, fun hn => by cases hn⟩

theorem MadeFunction.lists {x : IndexedFunction × FunctionDescriptor} {found : MemberMatch}
    {f : FunctionElement} (h : c.MadeFunction index b x id found f) :
    (Element.function f).Lists b.get? id where
  nodup l := by
    cases l with
    | parameters => exact h.parameters_nodup
    | typeParameters => exact h.typeParameters_nodup
    | _ => exact .nil
  standsAt {l i j} hj := by
    cases l with
    | parameters =>
      obtain ⟨e, he, hget⟩ := h.parameters.exists_of_getElem? hj
      exact ⟨e, hget, standsAt_of_parameterElements he⟩
    | typeParameters =>
      obtain ⟨e, he, hget⟩ := h.typeParameters.exists_of_getElem? hj
      exact ⟨e, hget, standsAt_of_typeParameterElements he⟩
    | _ => cases hj

theorem MadeConstructor.lists {x : IndexedConstructor × ConstructorDescriptor}
    {found : MemberMatch} {f : ConstructorElement} (h : c.MadeConstructor index b x id found f) :
    (Element.constructor f).Lists b.get? id where
  nodup l := by
    cases l with
    | parameters => exact h.parameters_nodup
    | _ => exact .nil
  standsAt {l i j} hj := by
    cases l with
    | parameters =>
      obtain ⟨e, he, hget⟩ := h.parameters.exists_of_getElem? hj
      exact ⟨e, hget, standsAt_of_parameterElements he⟩
    | _ => cases hj

theorem Contents.lists (h : c.Contents index b e.listed) : e.Lists b.get? c.owner :=
  ⟨h.nodup, h.listed⟩

theorem Complete.lists (h : c.Complete b) (he : b.get? id = some e) : e.Lists b.get? id := by
  obtain ⟨index, constructors, functions, -, hst⟩ := h.stage
  have hacc := hst.accounted he
  have container (hid : id = c.owner) : e.Lists b.get? id := by
    obtain ⟨index', e', -, he', hcontents⟩ := h.contents
    obtain rfl := Option.some.inj ((hid ▸ he).symm.trans he')
    exact hid ▸ hcontents.lists
  cases e with
  | function f =>
    obtain ⟨x, -, found, hmade⟩ := hacc
    exact hmade.lists
  | constructor f =>
    obtain ⟨x, -, found, hmade⟩ := hacc
    exact hmade.lists
  | type t => exact container hacc
  | fileFacade t => exact container hacc
  | package p => exact hacc.elim
  | implicit p => exact hacc.elim
  | _ => exact Element.lists_of_listed_eq_nil fun l => by cases l <;> rfl

/-- What belongs to the class or file is in one of its lists. -/
private theorem Complete.listed_of_owner? (h : c.Complete b) (he : b.get? id = some e)
    (howner : e.owner? = some c.owner) :
    ∃ owner o l, e.owner? = some owner ∧ b.get? owner = some o ∧ id ∈ o.listed l := by
  obtain ⟨index, o, -, ho, hcontents⟩ := h.contents
  obtain ⟨l, hl⟩ := hcontents.complete he howner
  exact ⟨c.owner, o, l, howner, ho, hl⟩

/-- Nothing that has a list to stand in is left out. -/
theorem Complete.mem_listed (h : c.Complete b) (he : b.get? id = some e) {l : MemberList}
    (hl : e.list? = some l) :
    ∃ owner o l', e.owner? = some owner ∧ b.get? owner = some o ∧ id ∈ o.listed l' := by
  obtain ⟨index, constructors, functions, -, hst⟩ := h.stage
  have hacc := hst.accounted he
  cases e with
  | function f =>
    obtain ⟨x, -, found, hmade⟩ := hacc
    exact h.listed_of_owner? he (hmade.standsAt 0).owner
  | constructor f =>
    obtain ⟨x, -, found, hmade⟩ := hacc
    exact h.listed_of_owner? he (hmade.standsAt 0).owner
  | property p => exact h.listed_of_owner? he hacc.owner?
  | enumEntry p => exact h.listed_of_owner? he hacc.owner?
  | parameter p =>
    obtain ⟨o, ids, ho, hids, hid⟩ := hacc
    exact ⟨p.owner, o, .parameters, rfl, ho, Element.listed_of_parameters? hids ▸ hid⟩
  | typeParameter p =>
    rcases hacc with ⟨howner, -⟩ | ⟨f, hf, hid⟩
    · exact h.listed_of_owner? he (congrArg some howner)
    · exact ⟨p.owner, .function f, .typeParameters, rfl, hf, hid⟩
  | _ => cases hl

/-- The elements of a complete batch fit together. -/
theorem Complete.intact (h : c.Complete b) (he : b.get? id = some e) : e.Intact b.get? id := by
  obtain ⟨index, constructors, functions, -, hst⟩ := h.stage
  refine ⟨hst.sound.closed he, hst.sound.older he, (h.lists he).standsAt, fun hl => ?_⟩
  obtain ⟨owner, o, l', howner, ho, hid⟩ := h.mem_listed he hl
  exact ⟨owner, o, howner, ho, (h.lists ho).count he hl hid⟩

end Container

theorem ElementId.shift_injective (n : Nat) : Function.Injective (ElementId.shift n) :=
  fun _ _ => ElementId.shift_inj.mp

namespace Resolver

variable {r : Resolver} {c : Cache} {id : ElementId} {e : Element}

/-- The elements of a faithful cache fit together. -/
theorem Faithful.intact (linked : r.host.Linked) (h : r.Faithful c)
    (he : c.element? id = some e) : e.Intact c.element? id := by
  obtain ⟨o, ho⟩ := h.held he
  cases o with
  | package decl =>
    obtain rfl := Option.some.inj (he.symm.trans ho)
    exact Element.intact_of_unlisted (fun l => rfl) rfl (by simp [Element.references])
      (by simp [Element.owner?])
  | staged container place =>
    obtain ⟨b, n, hb, hplaces, rfl, e₀, he₀⟩ := ho
    obtain rfl := Option.some.inj (he.symm.trans (hplaces.element he₀))
    obtain ⟨-, -, hcomplete⟩ := batch?_eq_some linked hb
    exact (hcomplete.intact he₀).mapIds (ElementId.shift_injective n)
      (fun i j => Nat.add_lt_add_left (k := n)) (fun j e' => hplaces.element)
  | implicit decl kind =>
    obtain rfl := Option.some.inj (he.symm.trans ho)
    exact Element.intact_of_unlisted (fun l => rfl) rfl (by simp [Element.references])
      (by simp [Element.owner?])
  | implicitIn o decl kind =>
    obtain ⟨owner, howner, hlt, hel⟩ := ho
    obtain rfl := Option.some.inj (he.symm.trans hel)
    refine Element.intact_of_unlisted (fun l => rfl) rfl (fun j hj => ?_) fun owner' ho' => ?_
    · obtain rfl : j = owner := by simpa [Element.references] using hj
      exact howner.exists_element
    · obtain rfl : owner = owner' := by simpa [Element.owner?] using ho'
      exact hlt

/-- In every cache that operations lead to, each entry is for an element that is there, and all
elements fit together: what they refer to is there, owners come first, and an element is listed where
it belongs and nowhere else. -/
theorem intact_runAll {t : DeclTree} (built : t.Built) (acyclic : t.toHost.Acyclic)
    (config : Config) (ops : List Operation) :
    let c := runAll ⟨t.toHost, config⟩ ops
    (∀ d id, c.get? d = some id → ∃ e, c.element? id = some e) ∧
      ∀ id e, c.element? id = some e → e.Intact c.element? id := by
  intro c
  have linked : t.toHost.Linked := built.linked.toHost
  have hfaithful : Faithful ⟨t.toHost, config⟩ c := faithful_runAll linked acyclic ops
  refine ⟨fun d id hd => ?_, fun id e he => hfaithful.intact linked he⟩
  obtain ⟨o, -, hholds⟩ := hfaithful.entry hd
  exact hholds.exists_element

/-- The class lists the function once. -/
theorem intact_overloaded :
    let c := runAll ⟨(DeclTree.overloaded .overloaded).toHost, {}⟩ [.resolve ⟨6⟩]
    ∃ o, c.element? ⟨0⟩ = some o ∧ (o.listed .functions).count ⟨1⟩ = 1 := by
  intro c
  obtain ⟨-, hintact⟩ := intact_runAll (DeclTree.built_overloaded .overloaded)
    (DeclTree.acyclic_overloaded .overloaded) {} [.resolve ⟨6⟩]
  have hc : c = Cache.overloaded := runAll_overloaded []
  obtain ⟨e, he, howner, hlist⟩ : ∃ e, c.element? ⟨1⟩ = some e ∧ e.owner? = some ⟨0⟩ ∧
      e.list? = some .functions := by
    rw [hc]
    exact ⟨_, rfl, rfl, rfl⟩
  obtain ⟨owner, o, howner', ho, hcount⟩ := (hintact ⟨1⟩ e he).once hlist
  obtain rfl := Option.some.inj (howner.symm.trans howner')
  exact ⟨o, ho, hcount .functions⟩

end Resolver

end Correspondence
