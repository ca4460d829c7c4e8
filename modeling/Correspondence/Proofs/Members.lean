import Correspondence.Proofs.Executables
import Correspondence.Proofs.Indexing

/-!
# Building members

The members of a class or file are made list by list: each of the constructors, functions, properties
and enum entries from its descriptor, in the order of the descriptors.
-/

namespace Correspondence

namespace PropertyAssembler

variable {a : PropertyAssembler} {p : IndexedProperty}

private theorem unique_eq_ok {descriptor : String} {l : List DeclId} {found : Option DeclId}
    (h : a.unique descriptor l = .ok found) {x : DeclId} : found = some x ↔ x ∈ l := by
  unfold unique at h
  split at h
  · obtain rfl := Except.ok.inj h
    simp
  · obtain rfl := Except.ok.inj h
    simp [eq_comm]
  · cases h

/-- The field that is found is the one with the name of the property. -/
theorem field_eq_ok {found : Option DeclId} (h : a.field p = .ok found) {x : DeclId} :
    found = some x ↔ x ∈ a.host.members a.owner .field ∧ a.host.simpleName x = p.name := by
  rw [unique_eq_ok h, List.mem_filter, decide_eq_true_eq]

/-- The accessor that is found is the one method with the recorded signature. -/
theorem accessor_eq_ok {role : AccessorRole} {found : Option DeclId}
    (h : a.accessor p role = .ok found) {x : DeclId} :
    found = some x ↔ x ∈ a.host.members a.owner .method ∧
      p.accessor role = some (a.host.signature x) := by
  unfold accessor at h
  split at h
  · rename_i hnone
    obtain rfl := Except.ok.inj h
    simp [hnone]
  · rename_i signature hsome
    obtain ⟨only, honly, h⟩ := Except.bind_eq_ok_iff.mp h
    have hmem : only = some x ↔ x ∈ a.host.members a.owner .method ∧
        some signature = some (a.host.signature x) := by
      rw [unique_eq_ok honly, List.mem_filter, decide_eq_true_eq, Option.some.injEq,
        eq_comm (a := signature)]
    rw [hsome, ← hmem]
    split at h
    · obtain rfl := Except.ok.inj h
      rfl
    · split at h
      · cases h
      · obtain rfl := Except.ok.inj h
        rfl

/-- A property is made of what is found for the roles, if that is not nothing. -/
theorem assemble_eq_ok_iff {found : PropertyMatch} :
    a.assemble p = .ok found ↔
      p.fieldName = none ∧ a.field p = .ok found.field ∧
        (∀ role, role ≠ .field → a.accessor p role = .ok (found.get? role)) ∧ ¬ found.isEmpty := by
  unfold assemble
  constructor
  · intro h
    split at h
    · cases h
    rename_i hname
    obtain ⟨field, hfield, h⟩ := Except.bind_eq_ok_iff.mp h
    obtain ⟨getter, hgetter, h⟩ := Except.bind_eq_ok_iff.mp h
    obtain ⟨setter, hsetter, h⟩ := Except.bind_eq_ok_iff.mp h
    obtain ⟨holder, hholder, h⟩ := Except.bind_eq_ok_iff.mp h
    dsimp only at h
    split at h
    · cases h
    rename_i hempty
    obtain rfl := Except.ok.inj h
    refine ⟨hname, hfield, fun role hrole => ?_, hempty⟩
    cases role with
    | field => exact absurd rfl hrole
    | getter => exact hgetter
    | setter => exact hsetter
    | holder => exact hholder
  · rintro ⟨hname, hfield, haccessor, hempty⟩
    rw [hname]
    refine Except.bind_eq_ok_iff.mpr ⟨_, hfield, ?_⟩
    refine Except.bind_eq_ok_iff.mpr ⟨_, haccessor .getter (by decide), ?_⟩
    refine Except.bind_eq_ok_iff.mpr ⟨_, haccessor .setter (by decide), ?_⟩
    exact Except.bind_eq_ok_iff.mpr ⟨_, haccessor .holder (by decide), if_neg hempty⟩

/-- The members of a property are what is found for the roles. -/
theorem assemble_eq_ok {found : PropertyMatch} (h : a.assemble p = .ok found) :
    a.field p = .ok found.field ∧
      ∀ role, role ≠ .field → a.accessor p role = .ok (found.get? role) := by
  obtain ⟨-, hfield, haccessor, -⟩ := assemble_eq_ok_iff.mp h
  exact ⟨hfield, haccessor⟩

/-- The compiled members of a property are fields, and methods with its signatures. -/
theorem mem_of_assemble {found : PropertyMatch} (h : a.assemble p = .ok found) {x : DeclId}
    (hx : x ∈ found.hosts.map Prod.snd) :
    x ∈ a.host.members a.owner .field ∨ x ∈ a.host.members a.owner .method ∧
      ∃ role, p.accessor role = some (a.host.signature x) := by
  obtain ⟨hfield, haccessor⟩ := assemble_eq_ok h
  obtain ⟨⟨role, y⟩, hy, rfl⟩ := List.mem_map.mp hx
  obtain ⟨role', -, hrole⟩ := List.mem_filterMap.mp hy
  obtain ⟨z, hz, heq⟩ := Option.map_eq_some_iff.mp hrole
  obtain ⟨rfl, rfl⟩ := Prod.mk.inj heq
  by_cases hrole : role' = .field
  · subst hrole
    exact .inl ((field_eq_ok hfield).mp hz).1
  · obtain ⟨hmem, hsignature⟩ := (accessor_eq_ok (haccessor role' hrole)).mp hz
    exact .inr ⟨hmem, role', hsignature⟩

end PropertyAssembler

namespace Container

variable {c : Container} {index : DescriptorIndex} {constructors : List ConstructorDescriptor}
  {functions : List FunctionDescriptor} {b b' : Batch}

theorem IsPlainMember.accounted {e : Element} (h : c.IsPlainMember e) (id : ElementId) :
    c.Accounted index constructors functions b id e := by
  rcases h.kind with ⟨p, rfl⟩ | ⟨p, rfl⟩
  · exact h
  · exact h

/-- The assembler for the properties. -/
def assembler (c : Container) : PropertyAssembler :=
  { host := c.host, owner := c.decl, verifyShapes := c.verifyShapes }

/-- The property that a descriptor and the members found for it are made into. -/
def propertyElement (c : Container) (found : PropertyMatch)
    (x : IndexedProperty × PropertyDescriptor) : PropertyElement :=
  { owner := c.owner, name := x.1.name, field := found.field, getter := found.getter,
    setter := found.setter, holder := found.holder, modality := x.2.modality,
    visibility := x.2.visibility, flags := x.2.flags, isExtension := x.2.receiver.isSome }

/-- The enum entry that a constant is made into. -/
def enumEntryElement (c : Container) (host : DeclId) (x : String × Nat) : EnumEntryElement :=
  { host, owner := c.owner, name := x.1, ordinal := x.2 }

/-- Whether an element is the property that is made from a descriptor. -/
def IsProperty (c : Container) (x : IndexedProperty × PropertyDescriptor) (e : Element) : Prop :=
  ∃ found, c.assembler.assemble x.1 = .ok found ∧ e = .property (c.propertyElement found x)

/-- Whether an element is the enum entry with a name and a position. -/
def IsEnumEntry (c : Container) (x : String × Nat) (e : Element) : Prop :=
  ∃ host ∈ c.host.members c.decl .enumConstant, e = .enumEntry (c.enumEntryElement host x)

theorem hostForms_propertyElement (found : PropertyMatch)
    (x : IndexedProperty × PropertyDescriptor) :
    (Element.property (c.propertyElement found x)).hostForms = found.hosts.map Prod.snd := by
  obtain ⟨field, getter, setter, holder⟩ := found
  cases field <;> cases getter <;> cases setter <;> cases holder <;> rfl

/-- A property stands for fields, and for methods with its signatures. -/
theorem IsProperty.mem_members {x : IndexedProperty × PropertyDescriptor} {e : Element}
    (h : c.IsProperty x e) {d : DeclId} (hd : d ∈ e.hostForms) :
    d ∈ c.host.members c.decl .field ∨ d ∈ c.host.members c.decl .method ∧
      ∃ role, x.1.accessor role = some (c.host.signature d) := by
  obtain ⟨found, hfound, rfl⟩ := h
  rw [hostForms_propertyElement] at hd
  exact PropertyAssembler.mem_of_assemble hfound hd

theorem IsProperty.isPlainMember {x : IndexedProperty × PropertyDescriptor} {e : Element}
    (h : c.IsProperty x e) : c.IsPlainMember e := by
  have hmembers {d : DeclId} := h.mem_members (d := d)
  obtain ⟨found, -, rfl⟩ := h
  refine ⟨.inl ⟨_, rfl⟩, rfl, fun {d} hd => ?_⟩
  rcases hmembers hd with hd | ⟨hd, -⟩
  · obtain ⟨hencl, hk⟩ := List.mem_filter.mp hd
    exact ⟨hencl, by simp [Element.admits, of_decide_eq_true hk]⟩
  · obtain ⟨hencl, hk⟩ := List.mem_filter.mp hd
    exact ⟨hencl, by simp [Element.admits, of_decide_eq_true hk]⟩

theorem IsEnumEntry.isPlainMember {x : String × Nat} {e : Element} (h : c.IsEnumEntry x e) :
    c.IsPlainMember e := by
  obtain ⟨host, hhost, rfl⟩ := h
  refine ⟨.inr ⟨_, rfl⟩, rfl, fun {d} hd => ?_⟩
  obtain rfl := List.mem_singleton.mp hd
  exact List.mem_filter.mp hhost

theorem buildProperty_ok {x : IndexedProperty × PropertyDescriptor} {id : ElementId}
    (h : c.buildProperty x b = .ok (id, b')) : ∃ e, c.IsProperty x e ∧ BuildM.Added b e id b' := by
  obtain ⟨indexed, descriptor⟩ := x
  obtain ⟨found, b₁, hlift, hadd⟩ := BuildM.bind_eq_ok_iff.mp h
  obtain ⟨hfound, rfl⟩ := BuildM.lift_eq_ok_iff.mp hlift
  rw [← hostForms_propertyElement (c := c) found (indexed, descriptor)] at hadd
  exact ⟨_, ⟨found, hfound, rfl⟩, BuildM.add_eq_ok c.host hadd⟩

/-- The constants that the index finds at the position of an entry. -/
def constantsOf (c : Container) (index : DescriptorIndex) (i : Nat) : List DeclId :=
  (c.host.members c.decl .enumConstant).filter fun d =>
    index.enumEntryNamed? (c.host.simpleName d) = some i

/-- After one pass over some constants, an entry has those that the index finds at its position. -/
theorem getElem?_foldl_placeConstant (l : List DeclId) (constants : List (List DeclId)) (i : Nat) :
    (l.foldl (c.placeConstant index) constants)[i]? =
      (constants[i]?).map (· ++ l.filter fun d =>
        index.enumEntryNamed? (c.host.simpleName d) = some i) := by
  induction l generalizing constants with
  | nil => simp
  | cons d l ih =>
    rw [List.foldl_cons, ih, List.filter_cons, placeConstant]
    cases hfind : index.enumEntryNamed? (c.host.simpleName d) with
    | none => simp
    | some ordinal =>
      rw [List.getElem?_modify]
      by_cases hi : ordinal = i
      · cases constants[i]? <;> simp [hi]
      · cases constants[i]? <;> simp [hi]

theorem enumConstants_eq (c : Container) (index : DescriptorIndex) :
    c.enumConstants index = (List.range index.enumEntries.length).map (c.constantsOf index) := by
  refine List.ext_getElem? fun i => ?_
  rw [enumConstants, getElem?_foldl_placeConstant]
  by_cases hi : i < index.enumEntries.length
  · simp [hi, constantsOf]
  · simp [hi]

/-- The step for the entry with a name and a position. -/
def buildEntryAt (c : Container) (index : DescriptorIndex) (x : String × Nat) : BuildM ElementId :=
  c.buildEnumEntry ((x.1, c.constantsOf index x.2), x.2)

theorem buildEnumEntries_eq (c : Container) (index : DescriptorIndex) :
    c.buildEnumEntries index = index.enumEntries.zipIdx.mapM (c.buildEntryAt index) := by
  have hentries : (index.enumEntries.zip (c.enumConstants index)).zipIdx =
      index.enumEntries.zipIdx.map fun x => ((x.1, c.constantsOf index x.2), x.2) := by
    refine List.ext_getElem? fun i => ?_
    rw [enumConstants_eq]
    by_cases hi : i < index.enumEntries.length
    · simp [hi]
    · simp [hi]
  rw [buildEnumEntries, hentries, List.mapM_map]
  rfl

private theorem buildEntryAt_ok {x : String × Nat} {id : ElementId}
    (h : c.buildEntryAt index x b = .ok (id, b')) :
    ∃ e, c.IsEnumEntry x e ∧ BuildM.Added b e id b' := by
  rcases hl : c.constantsOf index x.2 with _ | ⟨host, _ | ⟨other, several⟩⟩
  · simp only [buildEntryAt, buildEnumEntry, hl] at h
    exact absurd h BuildM.throw_ne_ok
  · simp only [buildEntryAt, buildEnumEntry, hl] at h
    let e : Element := .enumEntry (c.enumEntryElement host x)
    have hforms : e.hostForms = [host] := rfl
    refine ⟨e, ⟨host, ?_, rfl⟩, ?_⟩
    · exact (List.mem_filter.mp (hl ▸ List.mem_singleton_self host)).1
    · apply BuildM.add_eq_ok c.host
      rw [BuildM.add_of_hostForms_eq hforms]
      exact h
  · simp only [buildEntryAt, buildEnumEntry, hl] at h
    exact absurd h BuildM.throw_ne_ok

/-- A list of steps each of which makes a plain member. -/
private theorem Stage.plainMembers_ok {α : Type} {f : α → BuildM ElementId}
    {R : α → Element → Prop} {l : List α}
    (hf : ∀ x b id b', f x b = .ok (id, b') → ∃ e, R x e ∧ BuildM.Added b e id b')
    (hplain : ∀ x e, R x e → c.IsPlainMember e)
    (linked : c.host.Linked) (hst : c.Stage index constructors functions b)
    {ids : List ElementId} (h : l.mapM f b = .ok (ids, b')) :
    c.Stage index constructors functions b' ∧ b.Makes b' ids ∧
      List.Forall₂ (fun x id => ∃ e, R x e ∧ b'.get? id = some e) l ids := by
  obtain ⟨hsound, hmakes, hall, hnew⟩ := BuildM.adds_ok
    (fun x _ => hf x)
    (fun x _ e he j hj => by
      rw [(hplain x e he).references] at hj
      obtain rfl := List.mem_singleton.mp hj
      exact hst.get?_owner)
    (fun x _ e he d hd => by
      obtain ⟨hencl, hadmits⟩ := (hplain x e he).hosts hd
      refine .inr ⟨c.decl, (linked.member hencl).1, ⟨_, hst.own⟩, .inl ?_⟩
      rcases (hplain x e he).kind with ⟨p, rfl⟩ | ⟨p, rfl⟩
      · have hk : c.host.kind d = .field ∨ c.host.kind d = .method := by
          simpa [Element.admits] using hadmits
        rcases hk with hk | hk <;> simp [hk]
      · have hk : c.host.kind d = .enumConstant := of_decide_eq_true hadmits
        simp [hk])
    hst.sound h
  refine ⟨hst.extend hsound hmakes.toExtends fun j e he => ?_, hmakes, hall⟩
  rcases hnew j e he with he | ⟨x, -, he⟩
  · exact .inl he
  · exact .inr ((hplain x e he).accounted j)

/-- The properties stand in the order of their descriptors. -/
theorem buildProperties_ok (linked : c.host.Linked)
    (hst : c.Stage index constructors functions b) {descriptors : List PropertyDescriptor}
    {ids : List ElementId} (h : c.buildProperties index descriptors b = .ok (ids, b')) :
    c.Stage index constructors functions b' ∧ b.Makes b' ids ∧
      List.Forall₂ (fun x id => ∃ e, c.IsProperty x e ∧ b'.get? id = some e)
        (index.properties.zip descriptors) ids :=
  hst.plainMembers_ok (f := c.buildProperty) (R := c.IsProperty)
    (fun _ _ _ _ => buildProperty_ok) (fun _ _ h => h.isPlainMember) linked h

theorem buildEnumEntries_ok (linked : c.host.Linked)
    (hst : c.Stage index constructors functions b) {ids : List ElementId}
    (h : c.buildEnumEntries index b = .ok (ids, b')) :
    c.Stage index constructors functions b' ∧ b.Makes b' ids ∧
      List.Forall₂ (fun x id => ∃ e, c.IsEnumEntry x e ∧ b'.get? id = some e)
        index.enumEntries.zipIdx ids := by
  rw [buildEnumEntries_eq] at h
  exact hst.plainMembers_ok (f := c.buildEntryAt index) (R := c.IsEnumEntry)
    (fun _ _ _ _ => buildEntryAt_ok) (fun _ _ h => h.isPlainMember) linked h

/-- The functions stand in the order of their descriptors. -/
theorem buildFunctions_ok (linked : c.host.Linked)
    (hst : c.Stage index constructors functions b) {strings : StringTable} {ids : List ElementId}
    (h : c.buildFunctions index strings functions b = .ok (ids, b')) :
    c.Stage index constructors functions b' ∧ b.Makes b' ids ∧
      List.Forall₂ (fun x id => ∃ found f, c.MadeFunction index b' x id found f)
        (index.functions.zip functions) ids := by
  obtain ⟨hst', hmakes, hall⟩ := BuildM.mapM_ok (I := c.Stage index constructors functions)
    (Q := fun x id b => ∃ found f, c.MadeFunction index b x id found f) (g := fun id => id)
    (fun _ hx _ _ _ hb hstep => buildFunction_ok linked hb hx hstep)
    (fun _ _ _ _ hext hQ => by
      obtain ⟨found, f, hmade⟩ := hQ
      exact ⟨found, f, hmade.mono hext⟩)
    hst h
  rw [List.map_id'] at hmakes
  exact ⟨hst', hmakes, hall⟩

/-- A list that is sorted by flags has the elements with the flag first. -/
private theorem eq_filter_append_of_pairwise {α : Type} {l : List (Bool × α)}
    (h : l.Pairwise fun x y => (!x.1) ≤ !y.1) :
    l = l.filter Prod.fst ++ l.filter fun x => !x.1 := by
  induction l with
  | nil => rfl
  | cons x l ih =>
    obtain ⟨hx, hl⟩ := List.pairwise_cons.mp h
    obtain ⟨flag, y⟩ := x
    cases flag with
    | true =>
      simp only [List.filter_cons_of_pos, Bool.not_true, Bool.false_eq_true, not_false_eq_true,
        List.filter_cons_of_neg, List.cons_append]
      exact congrArg _ (ih hl)
    | false =>
      have hunset : ∀ flag : Bool, true ≤ !flag → flag = false := by decide
      have hall (z) (hz : z ∈ l) : z.1 = false := hunset _ (hx z hz)
      have hnone : l.filter Prod.fst = [] := by simpa using hall
      have hsome : (l.filter fun x => !x.1) = l := by simpa using hall
      simp [hnone, hsome]

/-- Sorting keeps the order of elements none of which has to come before another. -/
private theorem filter_mergeSort {α : Type} {le : α → α → Bool}
    (trans : ∀ x y z, le x y → le y z → le x z) (total : ∀ x y, (le x y || le y x) = true)
    {p : α → Bool} (hp : ∀ x y, p x → p y → le x y) (l : List α) :
    (l.mergeSort le).filter p = l.filter p := by
  have hsorted : (l.filter p).Pairwise fun x y => le x y = true :=
    List.pairwise_of_forall_mem_list fun x hx y hy =>
      hp x y (List.mem_filter.mp hx).2 (List.mem_filter.mp hy).2
  -- A sorted sublist is a sublist of the sorted list, here of one with the same length.
  have hsub := (List.sublist_mergeSort trans total hsorted List.filter_sublist).filter p
  simp only [List.filter_filter, Bool.and_self] at hsub
  exact (hsub.eq_of_length ((List.mergeSort_perm l le).filter p).length_eq.symm).symm

/-- Sorting by flags moves the elements with the flag to the front. Among those with the flag, and
among those without, the order stays. -/
theorem mergeSort_flags {α : Type} (l : List (Bool × α)) :
    (l.mergeSort fun x y => (!x.1) ≤ !y.1) = l.filter Prod.fst ++ l.filter fun x => !x.1 := by
  have htrans (x y z : Bool × α) : decide ((!x.1) ≤ !y.1) → decide ((!y.1) ≤ !z.1) →
      decide ((!x.1) ≤ !z.1) := by
    simpa using Bool.le_trans
  have htotal (x y : Bool × α) : (decide ((!x.1) ≤ !y.1) || decide ((!y.1) ≤ !x.1)) = true := by
    simpa using Bool.le_total (!x.1) (!y.1)
  have hsorted := (List.pairwise_mergeSort htrans htotal l).imp of_decide_eq_true
  rw [eq_filter_append_of_pairwise hsorted, filter_mergeSort htrans htotal,
    filter_mergeSort htrans htotal]
  · exact fun x y hx hy => by simp [hx, hy]
  · exact fun x y hx hy => by simp [hx, hy]

/-- The one primary constructor is moved to the front, and nothing else is moved. -/
theorem primaryFirst_eq (owner : String) (l : List (Bool × ElementId)) :
    primaryFirst owner l =
      if l = [] ∨ (l.filter Prod.fst).length = 1 then
        .ok ((l.filter Prod.fst ++ l.filter fun x => !x.1).map Prod.snd)
      else
        .error (.primaryConstructorOrder owner
          (if l.filter Prod.fst = [] then .noPrimary else .severalPrimaries)) := by
  have hcount : (l.filter Prod.fst ++ l.filter fun x => !x.1).countP Prod.fst =
      (l.filter Prod.fst).length := by
    rw [(List.filter_append_perm Prod.fst l).countP_eq, List.countP_eq_length_filter]
  simp only [primaryFirst, mergeSort_flags, hcount]
  rcases hprimary : l.filter Prod.fst with _ | ⟨⟨flag, id⟩, primary⟩
  · match l with
    | [] => rfl
    | (true, id) :: l => simp at hprimary
    | (false, id) :: l => simp
  · obtain rfl : flag = true := (List.mem_filter.mp (hprimary ▸ List.mem_cons_self)).2
    have hl : l ≠ [] := by
      rintro rfl
      cases hprimary
    cases primary <;> simp [hl]

/-- Constructors in the order in which they are listed: the primary one, then the secondary ones. -/
def primariesFirst (l : List (IndexedConstructor × ConstructorDescriptor)) :
    List (IndexedConstructor × ConstructorDescriptor) :=
  l.filter (·.2.isPrimary) ++ l.filter fun x => !x.2.isPrimary

/-- Whether constructors have a primary one as they should: only one, unless there is none at all. -/
def HasPrimary (l : List (IndexedConstructor × ConstructorDescriptor)) : Prop :=
  l = [] ∨ (l.filter (·.2.isPrimary)).length = 1

theorem buildConstructors_ok (linked : c.host.Linked)
    (hst : c.Stage index constructors functions b) {ids : List ElementId}
    (h : c.buildConstructors index constructors b = .ok (ids, b')) :
    c.Stage index constructors functions b' ∧ b.Makes b' ids ∧
      HasPrimary (index.constructors.zip constructors) ∧
      List.Forall₂ (fun x id => ∃ found f, c.MadeConstructor index b' x id found f)
        (primariesFirst (index.constructors.zip constructors)) ids := by
  obtain ⟨made, b₁, hmapM, hfirst⟩ := BuildM.bind_eq_ok_iff.mp h
  obtain ⟨hprimary, rfl⟩ := BuildM.lift_eq_ok_iff.mp hfirst
  obtain ⟨hst', hmakes, hall⟩ := BuildM.mapM_ok (I := c.Stage index constructors functions)
    (Q := fun x y b => y.1 = x.2.isPrimary ∧ ∃ found f, c.MadeConstructor index b x y.2 found f)
    (g := Prod.snd)
    (fun _ hx _ _ _ hb hstep => by
      obtain ⟨hst', hmakes, hmade⟩ := buildConstructor_ok linked hb hx hstep
      exact ⟨hst', hmakes, buildConstructor_isPrimary hstep, hmade⟩)
    (fun _ _ _ _ hext hQ => by
      obtain ⟨hflag, found, f, hmade⟩ := hQ
      exact ⟨hflag, found, f, hmade.mono hext⟩)
    hst hmapM
  have hprimaries := List.rel_filter (p := fun x => x.2.isPrimary) (q := Prod.fst)
    (fun x y hxy => by simp only [hxy.1]) hall
  have hsecondaries := List.rel_filter (p := fun x => !x.2.isPrimary) (q := fun y => !y.1)
    (fun x y hxy => by simp only [hxy.1]) hall
  rw [primaryFirst_eq] at hprimary
  split at hprimary
  · rename_i hone
    obtain rfl := Except.ok.inj hprimary
    refine ⟨hst', hmakes.perm ((List.filter_append_perm Prod.fst made).map Prod.snd).symm, ?_, ?_⟩
    · refine hone.imp (fun hnil => ?_) fun hone => hprimaries.length_eq.trans hone
      exact List.forall₂_nil_right_iff.mp (hnil ▸ hall)
    · rw [List.forall₂_map_right_iff]
      exact List.rel_append (hprimaries.imp fun _ _ => And.right)
        (hsecondaries.imp fun _ _ => And.right)
  · cases hprimary

end Container

end Correspondence
