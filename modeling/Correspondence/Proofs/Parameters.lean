import Correspondence.Proofs.Matching
import Correspondence.Proofs.Staging
import Correspondence.Proofs.Tree

/-!
# Building parameters

The elements of value parameters and type parameters stand in the order of their descriptors, with
the compiled parameters that they are matched with.
-/

namespace Correspondence.Container

variable {c : Container} {b b' : Batch}

/-- The element of a value parameter. -/
def parameterElement (owner : ElementId) : (ParameterMatch × IndexedParameter) × Nat → Element
  | ((found, param), position) => .parameter
    { host := found.host, overloadHosts := found.overloads, owner, name := param.name, position,
      hasDefault := param.hasDefault, isVararg := param.isVararg }

/-- The element of a type parameter, with the name that descriptor and host agree on. -/
def typeParameterElement (c : Container) (owner : ElementId) :
    DeclId × TypeParameterDescriptor → Element
  | (param, descriptor) => .typeParameter
    { host := param, owner, name := c.host.simpleName param, variance := descriptor.variance,
      reified := descriptor.reified }

theorem buildParameter_eq (c : Container) (owner : ElementId)
    (x : (ParameterMatch × IndexedParameter) × Nat) :
    c.buildParameter owner x = BuildM.add c.host (parameterElement owner x) := rfl

theorem buildTypeParameter_ok {strings : StringTable} {executable : DeclId} {owner id : ElementId}
    {x : (DeclId × TypeParameterDescriptor) × Nat}
    (h : c.buildTypeParameter strings executable owner x b = .ok (id, b')) :
    BuildM.Added b (c.typeParameterElement owner x.1) id b' := by
  obtain ⟨⟨param, descriptor⟩, position⟩ := x
  obtain ⟨name, b₁, hread, hadd⟩ := BuildM.bind_eq_ok_iff.mp h
  obtain ⟨-, rfl⟩ := BuildM.lift_eq_ok_iff.mp hread
  split at hadd
  · rename_i hname
    subst hname
    have hforms : (c.typeParameterElement owner (param, descriptor)).hostForms = [param] := rfl
    apply BuildM.add_eq_ok c.host
    rw [BuildM.add_of_hostForms_eq hforms]
    exact hadd
  · exact absurd hadd BuildM.throw_ne_ok

/-- Parameters are made from their matches, in the order of the descriptors. -/
theorem buildParameters_ok (linked : c.host.Linked) {m : MemberMatcher} (hm : m.host = c.host)
    {request : MatchRequest} {found : MemberMatch} (fits : m.Fits request found)
    {owner : ElementId} {e : Element} (howner : b.get? owner = some e)
    (hhosts : ∀ x ∈ found.hosts, ∃ id, b.claims.find? x = some id)
    {params : List IndexedParameter} {ids : List ElementId}
    (hb : b.Sound c.host c.decl) (h : c.buildParameters owner found params b = .ok (ids, b')) :
    b'.Sound c.host c.decl ∧ b.Makes b' ids ∧
      b'.LinesUp ids ((found.parameters.zip params).zipIdx.map (parameterElement owner)) ∧
      ∀ j e, b'.get? j = some e →
        b.get? j = some e ∨ ∃ p, e = .parameter p ∧ p.owner = owner ∧ j ∈ ids := by
  have attached {owner x : DeclId} (hx : x ∈ c.host.parameters owner)
      (ho : owner ∈ found.hosts) : b.Attached c.host c.decl x := by
    obtain ⟨hown, hk⟩ := linked.parameter hx
    exact .inr ⟨owner, hown, hhosts owner ho, .inl (by simp [hk])⟩
  obtain ⟨hsound, hmakes, hall, hnew⟩ := BuildM.adds_ok
    (R := fun x e => e = parameterElement owner x)
    (fun x _ b id b' hx => ⟨_, rfl, BuildM.add_eq_ok c.host hx⟩)
    (fun x _ e he j hj => by
      subst he
      obtain rfl := List.mem_singleton.mp hj
      exact ⟨_, howner⟩)
    (fun x hx e he d hd => by
      subst he
      obtain ⟨⟨p, param⟩, position⟩ := x
      have hp : p ∈ found.parameters := (List.of_mem_zip (List.fst_mem_of_mem_zipIdx hx)).1
      rcases List.mem_cons.mp hd with rfl | hd
      · exact attached (hm ▸ fits.host_parameter_mem hp) List.mem_cons_self
      · obtain ⟨s, hs, hds, -⟩ := fits.same hp hd
        exact attached (hm ▸ hds) (List.mem_cons_of_mem _ hs))
    hb h
  have hlines : b'.LinesUp ids ((found.parameters.zip params).zipIdx.map (parameterElement owner)) :=
    Batch.linesUp_map_iff.mpr (hall.imp fun x id ⟨e, he, hget⟩ => he ▸ hget)
  refine ⟨hsound, hmakes, hlines, fun j e he => ?_⟩
  rcases hnew j e he with hold | ⟨x, hx, rfl⟩
  · exact .inl hold
  · exact .inr ⟨_, rfl, rfl,
      hlines.mem_of_get? hsound (List.mem_map_of_mem hx) List.mem_cons_self he⟩

/-- Type parameters are made for each of the host, in order. -/
theorem buildTypeParameters_ok (linked : c.host.Linked) {strings : StringTable} {decl : DeclId}
    {owner : ElementId} {e : Element} (howner : b.get? owner = some e)
    (hdecl : ∃ id, b.claims.find? decl = some id)
    (hkind : (c.host.kind decl).isType ∨ c.host.kind decl = .method)
    {descriptors : List TypeParameterDescriptor} {ids : List ElementId}
    (hb : b.Sound c.host c.decl)
    (h : c.buildTypeParameters strings decl owner descriptors b = .ok (ids, b')) :
    b'.Sound c.host c.decl ∧ b.Makes b' ids ∧
      (c.host.typeParameters decl).length = descriptors.length ∧
      b'.LinesUp ids
        (((c.host.typeParameters decl).zip descriptors).map (c.typeParameterElement owner)) ∧
      ∀ j e, b'.get? j = some e → b.get? j = some e ∨
        ∃ p, e = .typeParameter p ∧ p.owner = owner ∧ p.host ∈ c.host.typeParameters decl ∧
          j ∈ ids := by
  unfold buildTypeParameters at h
  split at h
  · rename_i hlength
    obtain ⟨hsound, hmakes, hall, hnew⟩ := BuildM.adds_ok
      (R := fun x e => e = c.typeParameterElement owner x.1)
      (fun x _ b id b' hx => ⟨_, rfl, buildTypeParameter_ok hx⟩)
      (fun x _ e he j hj => by
        subst he
        obtain rfl := List.mem_singleton.mp hj
        exact ⟨_, howner⟩)
      (fun x hx e he d hd => by
        subst he
        obtain rfl := List.mem_singleton.mp hd
        have hx := (List.of_mem_zip (List.fst_mem_of_mem_zipIdx hx)).1
        obtain ⟨hown, hk⟩ := linked.typeParameter hx
        exact .inr ⟨decl, hown, hdecl, .inr ⟨hk, hkind⟩⟩)
      hb h
    have hlines := Batch.linesUp_map_iff.mpr (hall.imp fun x id ⟨e, he, hget⟩ => he ▸ hget)
    rw [← Function.comp_def (c.typeParameterElement owner) Prod.fst, ← List.map_map,
      List.zipIdx_map_fst] at hlines
    refine ⟨hsound, hmakes, hlength, hlines, fun j e he => ?_⟩
    rcases hnew j e he with hold | ⟨x, hx, rfl⟩
    · exact .inl hold
    · have hx := List.fst_mem_of_mem_zipIdx hx
      exact .inr ⟨_, rfl, rfl, (List.of_mem_zip hx).1,
        hlines.mem_of_get? hsound (List.mem_map_of_mem hx) List.mem_cons_self he⟩
  · obtain ⟨name, b₁, -, hthrow⟩ := BuildM.bind_eq_ok_iff.mp h
    exact absurd hthrow BuildM.throw_ne_ok

end Correspondence.Container
