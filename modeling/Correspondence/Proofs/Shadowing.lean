import Correspondence.Proofs.Bounds

/-!
# Shadowing

Type parameters are found by number in one scope, the innermost first, and this holds for the bounds of
outer type parameters too. So an inner declaration may change what an outer type parameter erases to
although it does not hide it: it is enough that it hides one that the bounds lead to.
-/

namespace Correspondence

theorem StringTable.get_size (t : StringTable) :
    t.get ⟨t.size⟩ = .error (.stringOutOfRange ⟨t.size⟩ t.size) := by
  have hnone : t.strings.get? t.size = none := List.getElem?_eq_none (Nat.le_refl _)
  simp only [get, hnone]

namespace Scope

variable {scope : Scope} {params : List TypeParameterDescriptor} {type last : TypeRef}
  {position lastPosition : TypePosition} {arrays bounds most id : Nat}

theorem find?_enter (scope : Scope) (params : List TypeParameterDescriptor) (id : Nat) :
    (scope.enter params).find? id =
      (params.reverse.find? (·.id = id)).or (scope.find? id) :=
  List.find?_append

theorem find?_enter_of_ne (h : ∀ p ∈ params, p.id ≠ id) :
    (scope.enter params).find? id = scope.find? id := by
  have hnone : params.reverse.find? (·.id = id) = none := by simpa using h
  rw [find?_enter, hnone, Option.none_or]

theorem find?_enter_singleton {p : TypeParameterDescriptor} (h : p.id = id) :
    (scope.enter [p]).find? id = some p := by
  simp [find?_enter, h]

theorem exists_find?_enter (params : List TypeParameterDescriptor) {param : TypeParameterDescriptor}
    (h : scope.find? id = some param) : ∃ inner, (scope.enter params).find? id = some inner := by
  rw [find?_enter, h]
  cases params.reverse.find? (·.id = id) with
  | none => exact ⟨param, rfl⟩
  | some inner => exact ⟨inner, rfl⟩

/-- Whether a type that is encoded with so many bounds to follow leads to a type parameter of which the
bounds matter, or which is not there. -/
def Consults (scope : Scope) (most : Nat) (type : TypeRef) (position : TypePosition) (id : Nat) :
    Prop :=
  ∃ arrays bounds last lastPosition, scope.Leads arrays bounds type position last lastPosition ∧
    last.classifier = .typeParameter id ∧
    (bounds < most ∨ bounds = most ∧ scope.find? id = none)

theorem Consults.here (hid : type.classifier = .typeParameter id)
    (h : 0 < most ∨ 0 = most ∧ scope.find? id = none) : scope.Consults most type position id :=
  ⟨0, 0, type, position, .here, hid, h⟩

theorem Consults.element {element : TypeRef} {name : StringId}
    (hid : type.classifier = .named name) (hname : scope.strings.get name = .ok ClassName.array)
    (helement : elementType? type = some element) (h : scope.Consults most element .argument id) :
    scope.Consults most type position id := by
  obtain ⟨arrays, bounds, last, lastPosition, hleads, hlast⟩ := h
  exact ⟨arrays + 1, bounds, last, lastPosition, .element hid hname helement hleads, hlast⟩

theorem Consults.bound {bound : TypeRef} {id' : Nat} {param : TypeParameterDescriptor}
    (hid : type.classifier = .typeParameter id') (hparam : scope.find? id' = some param)
    (hbound : param.upperBounds.head? = some bound) (h : scope.Consults most bound .argument id) :
    scope.Consults (most + 1) type position id := by
  obtain ⟨arrays, bounds, last, lastPosition, hleads, hlast, hbounds⟩ := h
  refine ⟨arrays, bounds + 1, last, lastPosition, .bound hid hparam hbound hleads, hlast, ?_⟩
  rwa [Nat.add_lt_add_iff_right, Nat.add_right_cancel_iff]

/-- Inner type parameters that the encoding does not consult leave it alone. -/
theorem encodeWithin_enter (h : ∀ p ∈ params, ¬ scope.Consults most type position p.id) :
    (scope.enter params).encodeWithin most type position =
      scope.encodeWithin most type position := by
  have hconsulted {most : Nat} {type : TypeRef} {position : TypePosition} {id : Nat}
      (h : ∀ p ∈ params, ¬ scope.Consults most type position p.id)
      (hid : scope.Consults most type position id) :
      (scope.enter params).find? id = scope.find? id :=
    find?_enter_of_ne fun p hp heq => h p hp (heq ▸ hid)
  fun_induction encodeWithin scope most type position with
  | case1 most type position id hid hparam =>
    have hfind := hconsulted h (.here hid (most.eq_zero_or_pos.symm.imp_right fun hmost =>
      ⟨hmost.symm, hparam⟩))
    exact encodeWithin_of_fails (.typeParameter hid (hfind.trans hparam))
  | case2 type position id hid param hparam most bound rest hbounds ih =>
    have hbound : param.upperBounds.head? = some bound := by rw [hbounds, List.head?_cons]
    have hfind := hconsulted h (.here hid (.inl most.succ_pos))
    rw [encodeWithin_of_bound hid (hfind.trans hparam) hbound]
    exact ih fun p hp hconsults => h p hp (hconsults.bound hid hparam hbound)
  | case3 most type position id hid param hparam hnone =>
    cases most with
    | zero =>
      -- Where no bound is left to follow, one declaration is as good as another.
      obtain ⟨inner, hinner⟩ := exists_find?_enter params hparam
      rw [encodeWithin]
      simp only [hid, hinner]
    | succ most =>
      have hfind := hconsulted h (.here hid (.inl most.succ_pos))
      cases hbounds : param.upperBounds with
      | nil => exact encodeWithin_of_ends (.unbounded hid (hfind.trans hparam) hbounds)
      | cons bound rest => exact (hnone most bound rest rfl hbounds).elim
  | case4 most type position id hid e hname => exact encodeWithin_of_fails (.string hid hname)
  | case5 most type position id hid element helement _ _ hencode hname ih
  | case6 most type position id hid element helement _ _ hencode hname ih =>
    have hname' : (scope.enter params).strings.get id = .ok ClassName.array := hname
    rw [encodeWithin_of_elementType? hid hname' helement,
      ih fun p hp hconsults => h p hp (hconsults.element hid hname helement), hencode]
    rfl
  | case7 most type position id hid hnone hname =>
    exact encodeWithin_of_ends (.noElement hid hname hnone)
  | case8 most type position id hid name hname harray =>
    exact encodeWithin_of_ends (.named hid hname harray)

/-- An inner declaration of a type parameter that the type leads to is reached, be it earlier. -/
theorem exists_leads_enter {p : TypeParameterDescriptor}
    (h : scope.Leads arrays bounds type position last lastPosition)
    (hlast : last.classifier = .typeParameter p.id) :
    ∃ arrays' bounds' last' lastPosition', bounds' ≤ bounds ∧
      (scope.enter [p]).Leads arrays' bounds' type position last' lastPosition' ∧
      last'.classifier = .typeParameter p.id := by
  induction h with
  | @here type position => exact ⟨0, 0, type, position, Nat.le_refl _, .here, hlast⟩
  | element hid hname helement h ih =>
    obtain ⟨arrays', bounds', last', lastPosition', hle, hleads, hlast'⟩ := ih hlast
    exact ⟨arrays' + 1, bounds', last', lastPosition', hle, .element hid hname helement hleads, hlast'⟩
  | @bound type bound last position lastPosition id param arrays bounds hid hparam hbound h ih =>
    by_cases hp : p.id = id
    · exact ⟨0, 0, type, position, Nat.zero_le _, .here, hp ▸ hid⟩
    · obtain ⟨arrays', bounds', last', lastPosition', hle, hleads, hlast'⟩ := ih hlast
      have hfind : (scope.enter [p]).find? id = some param :=
        (find?_enter_of_ne (by simpa using hp)).trans hparam
      exact ⟨arrays', bounds' + 1, last', lastPosition', Nat.succ_le_succ hle,
        .bound hid hfind hbound hleads, hlast'⟩

/-- An inner declaration without bounds stands for any object wherever it is consulted. -/
theorem exists_encodeWithin_enter_unbounded {p : TypeParameterDescriptor}
    (h : scope.Consults most type position p.id) (hbounds : p.upperBounds = []) :
    ∃ text, (scope.enter [p]).encodeWithin most type position = .ok text := by
  obtain ⟨arrays, bounds, last, lastPosition, hleads, hlast, hle⟩ := h
  obtain ⟨arrays', bounds', last', lastPosition', hle', hleads', hlast'⟩ :=
    exists_leads_enter hleads hlast
  have hends : (scope.enter [p]).Ends last' lastPosition' objectDescriptor :=
    .unbounded hlast' (find?_enter_singleton rfl) hbounds
  exact ⟨_, encodeWithin_of_erases ⟨arrays', last', lastPosition', _, hleads', hends, rfl⟩ (by omega)⟩

/-- An inner declaration whose bound is a missing string is an error wherever its bounds are followed. -/
theorem encodeWithin_enter_missing {p : TypeParameterDescriptor} {name : StringId} {e : MetadataError}
    (h : scope.Leads arrays bounds type position last lastPosition)
    (hlast : last.classifier = .typeParameter p.id) (hbounds : bounds < most)
    (hbound : p.upperBounds = [.named name]) (hname : scope.strings.get name = .error e) :
    (scope.enter [p]).encodeWithin most type position = .error e := by
  obtain ⟨arrays', bounds', last', lastPosition', hle, hleads, hlast'⟩ := exists_leads_enter h hlast
  have hstep : (scope.enter [p]).Leads 0 1 last' lastPosition' (.named name) .argument :=
    .bound hlast' (find?_enter_singleton rfl) (by rw [hbound, List.head?_cons]) .here
  exact encodeWithin_of_leads_fails (hleads.trans hstep) (.string rfl hname) (by omega)

/-- Where the encoding consults a type parameter, some inner declaration of it is noticed. -/
theorem Consults.exists_ne (h : scope.Consults most type position id) :
    ∃ p : TypeParameterDescriptor, p.id = id ∧
      (scope.enter [p]).encodeWithin most type position ≠
        scope.encodeWithin most type position := by
  by_contra! hsame
  obtain ⟨text, htext⟩ := exists_encodeWithin_enter_unbounded (p := { id, name := ⟨0⟩ }) h rfl
  rw [hsame _ rfl] at htext
  obtain ⟨arrays, bounds, last, lastPosition, hleads, hlast, hbounds | ⟨rfl, hnone⟩⟩ := h
  · have hmissing := encodeWithin_enter_missing
      (p := { id, name := ⟨0⟩, upperBounds := [.named ⟨scope.strings.size⟩] })
      hleads hlast hbounds rfl scope.strings.get_size
    rw [hsame _ rfl, htext] at hmissing
    cases hmissing
  · cases htext.symm.trans
      (encodeWithin_of_leads_fails hleads (.typeParameter hlast hnone) (Nat.le_refl _))

/-- Inner type parameters leave the encoding of a type alone if it consults none of them. So the type is
encoded alike below all declarations that do not hide a type parameter exactly if it consults no other
one. -/
theorem encode_enter_iff (scope : Scope) (type : TypeRef) (position : TypePosition) (id : Nat) :
    (∀ params : List TypeParameterDescriptor,
      (∀ p ∈ params, ¬ scope.Consults 16 type position p.id) →
      (scope.enter params).encode type position = scope.encode type position) ∧
    ((∀ params : List TypeParameterDescriptor, (∀ p ∈ params, p.id ≠ id) →
      (scope.enter params).encode type position = scope.encode type position) ↔
        ∀ id', scope.Consults 16 type position id' → id' = id) := by
  refine ⟨fun params h => encodeWithin_enter h, fun hsame id' hid' => ?_, fun honly params hne => ?_⟩
  · by_contra hne
    obtain ⟨p, rfl, hp⟩ := hid'.exists_ne
    exact hp (hsame [p] (by simpa using hne))
  · exact encodeWithin_enter fun p hp hconsults => hne p hp (honly p.id hconsults)

/-- The scope of a type parameter that is bounded by another one, which is bounded by numbers. -/
def nested : Scope where
  strings := ⟨⟨["kotlin/Int", "kotlin/Long"]⟩⟩
  typeParameters :=
    [{ id := 0, name := ⟨0⟩, upperBounds := [.typeParameter 1] },
      { id := 1, name := ⟨0⟩, upperBounds := [.named ⟨0⟩] }]

/-- A type parameter that is bounded by long numbers. -/
def longBounded (id : Nat) : TypeParameterDescriptor :=
  { id, name := ⟨1⟩, upperBounds := [.named ⟨1⟩] }

theorem nested_consults (h : nested.Consults most (.typeParameter 0) position id) :
    id = 0 ∨ id = 1 := by
  obtain ⟨arrays, bounds, last, lastPosition, hleads, hlast, -⟩ := h
  cases hleads with
  | here => exact .inl (Classifier.typeParameter.inj hlast).symm
  | element hid => cases hid
  | bound hid hparam hbound hleads =>
    obtain rfl := Classifier.typeParameter.inj hid
    obtain rfl := Option.some.inj hparam
    obtain rfl := Option.some.inj hbound
    cases hleads with
    | here => exact .inr (Classifier.typeParameter.inj hlast).symm
    | element hid => cases hid
    | bound hid hparam hbound hleads =>
      obtain rfl := Classifier.typeParameter.inj hid
      obtain rfl := Option.some.inj hparam
      obtain rfl := Option.some.inj hbound
      cases hleads with
      | here => cases hlast
      | element hid hname =>
        obtain rfl := Classifier.named.inj hid
        exact absurd (Except.ok.inj hname) (by decide)
      | bound hid => cases hid

/-- A type parameter that the bounds do not lead to leaves the encoding alone. -/
theorem encode_enter_nested :
    (nested.enter [longBounded 2]).encode (.typeParameter 0) .value =
      nested.encode (.typeParameter 0) .value := by
  refine (encode_enter_iff nested (.typeParameter 0) .value 0).1 _ fun p hp hconsults => ?_
  obtain rfl := List.mem_singleton.mp hp
  rcases nested_consults hconsults with h | h <;> cases h

/-- A type parameter that is not hidden may still erase to something else inside. -/
theorem not_forall_encode_enter :
    ¬ ∀ (scope : Scope) (params : List TypeParameterDescriptor) (id : Nat) (position : TypePosition),
      (∃ p ∈ scope.typeParameters, p.id = id) → (∀ p ∈ params, p.id ≠ id) →
      (scope.enter params).encode (.typeParameter id) position =
        scope.encode (.typeParameter id) position := by
  intro h
  have hsame := h nested [longBounded 1] 0 .value ⟨_, List.mem_cons_self, rfl⟩ (by simp [longBounded])
  have houter : nested.encode (.typeParameter 0) .value = .ok "Ljava/lang/Integer;" := by cbv
  have hinner : (nested.enter [longBounded 1]).encode (.typeParameter 0) .value =
      .ok "Ljava/lang/Long;" := by cbv
  rw [houter, hinner] at hsame
  exact absurd (Except.ok.inj hsame) (by decide)

end Scope

end Correspondence
