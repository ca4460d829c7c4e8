import Correspondence.Proofs.Encoding

/-!
# Bounds

A type leads through the elements of arrays and the first bounds of type parameters to one type that
settles its descriptor. Scopes may be cyclic, so the way need not end. The encoding follows it up to a
number of bounds, and answers as if there were none at the last type parameter that it reaches.
-/

namespace Correspondence.Scope

/-- Whether a type at some position leads to another one, through as many arrays and bounds. What is
reached through either is an argument. -/
inductive Leads (scope : Scope) : (arrays bounds : Nat) → TypeRef → TypePosition → TypeRef →
    TypePosition → Prop
  | here {type : TypeRef} {position : TypePosition} : Leads scope 0 0 type position type position
  | element {type element last : TypeRef} {position lastPosition : TypePosition} {id : StringId}
      {arrays bounds : Nat} (hid : type.classifier = .named id)
      (hname : scope.strings.get id = .ok ClassName.array)
      (helement : elementType? type = some element)
      (h : Leads scope arrays bounds element .argument last lastPosition) :
      Leads scope (arrays + 1) bounds type position last lastPosition
  | bound {type bound last : TypeRef} {position lastPosition : TypePosition} {id : Nat}
      {param : TypeParameterDescriptor} {arrays bounds : Nat}
      (hid : type.classifier = .typeParameter id) (hparam : scope.find? id = some param)
      (hbound : param.upperBounds.head? = some bound)
      (h : Leads scope arrays bounds bound .argument last lastPosition) :
      Leads scope arrays (bounds + 1) type position last lastPosition

/-- Whether a type leads no further, with the descriptor that it has then. -/
inductive Ends (scope : Scope) (type : TypeRef) (position : TypePosition) : String → Prop
  | unbounded {id : Nat} {param : TypeParameterDescriptor}
      (hid : type.classifier = .typeParameter id) (hparam : scope.find? id = some param)
      (hbounds : param.upperBounds = []) : Ends scope type position objectDescriptor
  | noElement {id : StringId} (hid : type.classifier = .named id)
      (hname : scope.strings.get id = .ok ClassName.array) (helement : elementType? type = none) :
      Ends scope type position ("[" ++ objectDescriptor)
  | named {id : StringId} {name : String} (hid : type.classifier = .named id)
      (hname : scope.strings.get id = .ok name) (harray : name ≠ ClassName.array) :
      Ends scope type position (encodeClass name type.nullable position)

/-- Whether a type refers to a type parameter or a string that is not there. -/
inductive Fails (scope : Scope) (type : TypeRef) : MetadataError → Prop
  | typeParameter {id : Nat} (hid : type.classifier = .typeParameter id)
      (hparam : scope.find? id = none) : Fails scope type (.unknownTypeParameter id)
  | string {id : StringId} {e : MetadataError} (hid : type.classifier = .named id)
      (hname : scope.strings.get id = .error e) : Fails scope type e

/-- Whether a type is a type parameter that has a bound. -/
def IsBounded (scope : Scope) (type : TypeRef) : Prop :=
  ∃ id param, type.classifier = .typeParameter id ∧ scope.find? id = some param ∧
    param.upperBounds ≠ []

/-- The start of the descriptor of arrays within arrays. -/
def arrayStart (arrays : Nat) : String :=
  String.ofList (List.replicate arrays '[')

theorem arrayStart_succ (arrays : Nat) : arrayStart (arrays + 1) = "[" ++ arrayStart arrays := by
  rw [← String.toList_inj]
  simp [arrayStart, List.replicate_succ]

/-- Whether following as many bounds, however many these are, ends with a descriptor. -/
def Erases (scope : Scope) (bounds : Nat) (type : TypeRef) (position : TypePosition)
    (text : String) : Prop :=
  ∃ arrays last lastPosition leaf, scope.Leads arrays bounds type position last lastPosition ∧
    scope.Ends last lastPosition leaf ∧ text = arrayStart arrays ++ leaf

/-- Whether there is another bound to follow after as many of them, with the descriptor in which any
object takes its place. -/
def Cuts (scope : Scope) (bounds : Nat) (type : TypeRef) (position : TypePosition)
    (text : String) : Prop :=
  ∃ arrays last lastPosition, scope.Leads arrays bounds type position last lastPosition ∧
    scope.IsBounded last ∧ text = arrayStart arrays ++ objectDescriptor

variable {scope : Scope} {type last : TypeRef} {position lastPosition : TypePosition}
  {arrays bounds : Nat}

theorem encodeWithin_of_ends {leaf : String} (h : scope.Ends type position leaf) :
    scope.encodeWithin bounds type position = .ok leaf := by
  rw [encodeWithin]
  cases h with
  | unbounded hid hparam hbounds => simp only [hid, hparam, hbounds]
  | noElement hid hname helement =>
    simp only [hid, hname, if_true]
    split
    · rename_i heq
      simp [helement] at heq
    · rfl
  | named hid hname harray => simp only [hid, hname, harray, if_false]

theorem encodeWithin_of_fails {e : MetadataError} (h : scope.Fails type e) :
    scope.encodeWithin bounds type position = .error e := by
  rw [encodeWithin]
  cases h with
  | typeParameter hid hparam => simp only [hid, hparam]
  | string hid hname => simp only [hid, hname]

theorem encodeWithin_zero_of_isBounded (h : scope.IsBounded type) :
    scope.encodeWithin 0 type position = .ok objectDescriptor := by
  obtain ⟨id, param, hid, hparam, -⟩ := h
  rw [encodeWithin]
  simp only [hid, hparam]

theorem map_arrayStart_succ (arrays : Nat) (x : Except MetadataError String) :
    x.map (arrayStart (arrays + 1) ++ ·) = (x.map (arrayStart arrays ++ ·)).map ("[" ++ ·) := by
  cases x with
  | error e => rfl
  | ok text => simp only [Except.map, arrayStart_succ, String.append_assoc]

/-- An array is encoded as its elements are, whatever its position. -/
theorem encodeWithin_of_elementType? {element : TypeRef} {id : StringId}
    (hid : type.classifier = .named id) (hname : scope.strings.get id = .ok ClassName.array)
    (helement : elementType? type = some element) :
    scope.encodeWithin bounds type position =
      (scope.encodeWithin bounds element .argument).map ("[" ++ ·) := by
  rw [encodeWithin]
  simp only [hid, hname, if_true]
  split
  · rename_i element' heq
    obtain rfl := Option.some.inj (heq.symm.trans helement)
    cases scope.encodeWithin bounds element' .argument <;> rfl
  · rename_i heq
    simp [helement] at heq

/-- A type parameter is encoded as its first bound is, with one bound less to follow. -/
theorem encodeWithin_of_bound {bound : TypeRef} {id : Nat} {param : TypeParameterDescriptor}
    (hid : type.classifier = .typeParameter id) (hparam : scope.find? id = some param)
    (hbound : param.upperBounds.head? = some bound) :
    scope.encodeWithin (bounds + 1) type position = scope.encodeWithin bounds bound .argument := by
  obtain ⟨rest, hbounds⟩ := List.head?_eq_some_iff.mp hbound
  rw [encodeWithin]
  simp only [hid, hparam, hbounds]

/-- What a type leads to settles how it is encoded, with the bounds that are left then. -/
theorem encodeWithin_of_leads (h : scope.Leads arrays bounds type position last lastPosition)
    (left : Nat) :
    scope.encodeWithin (bounds + left) type position =
      (scope.encodeWithin left last lastPosition).map (arrayStart arrays ++ ·) := by
  induction h with
  | @here type position =>
    rw [Nat.zero_add]
    cases scope.encodeWithin left type position with
    | error e => rfl
    | ok text => simp [Except.map, arrayStart]
  | element hid hname helement h ih =>
    rw [encodeWithin_of_elementType? hid hname helement, ih, map_arrayStart_succ]
  | bound hid hparam hbound h ih => rw [Nat.succ_add, encodeWithin_of_bound hid hparam hbound, ih]

theorem encodeWithin_of_erases {text : String} {most : Nat}
    (h : scope.Erases bounds type position text) (hbounds : bounds ≤ most) :
    scope.encodeWithin most type position = .ok text := by
  obtain ⟨arrays, last, lastPosition, leaf, hleads, hends, rfl⟩ := h
  obtain ⟨left, rfl⟩ := Nat.exists_eq_add_of_le hbounds
  rw [encodeWithin_of_leads hleads, encodeWithin_of_ends hends]
  rfl

theorem encodeWithin_of_cuts {text : String} (h : scope.Cuts bounds type position text) :
    scope.encodeWithin bounds type position = .ok text := by
  obtain ⟨arrays, last, lastPosition, hleads, hbounded, rfl⟩ := h
  have hencode := encodeWithin_of_leads hleads 0
  rw [Nat.add_zero, encodeWithin_zero_of_isBounded hbounded] at hencode
  exact hencode

theorem encodeWithin_of_leads_fails {e : MetadataError} {most : Nat}
    (h : scope.Leads arrays bounds type position last lastPosition) (he : scope.Fails last e)
    (hbounds : bounds ≤ most) : scope.encodeWithin most type position = .error e := by
  obtain ⟨left, rfl⟩ := Nat.exists_eq_add_of_le hbounds
  rw [encodeWithin_of_leads h, encodeWithin_of_fails he]
  rfl

/-- Within a number of bounds, a type leads to one that leads no further or that is not there, or to one
that still has a bound when all of them are used up. -/
theorem exists_leads (scope : Scope) (most : Nat) (type : TypeRef) (position : TypePosition) :
    ∃ arrays bounds last lastPosition, bounds ≤ most ∧
      scope.Leads arrays bounds type position last lastPosition ∧
      ((∃ leaf, scope.Ends last lastPosition leaf) ∨ (∃ e, scope.Fails last e) ∨
        bounds = most ∧ scope.IsBounded last) := by
  fun_induction encodeWithin scope most type position with
  | case1 most type position id hid hparam =>
    exact ⟨0, 0, type, position, Nat.zero_le _, .here, .inr (.inl ⟨_, .typeParameter hid hparam⟩)⟩
  | case2 type position id hid param hparam most bound rest hbounds ih =>
    obtain ⟨arrays, bounds, last, lastPosition, hle, hleads, hlast⟩ := ih
    have hbound : param.upperBounds.head? = some bound := by rw [hbounds, List.head?_cons]
    refine ⟨arrays, bounds + 1, last, lastPosition, Nat.succ_le_succ hle,
      .bound hid hparam hbound hleads, ?_⟩
    rwa [Nat.add_right_cancel_iff]
  | case3 most type position id hid param hparam hnone =>
    refine ⟨0, 0, type, position, Nat.zero_le _, .here, ?_⟩
    cases hbounds : param.upperBounds with
    | nil => exact .inl ⟨_, .unbounded hid hparam hbounds⟩
    | cons bound rest =>
      cases most with
      | zero => exact .inr (.inr ⟨rfl, id, param, hid, hparam, by simp [hbounds]⟩)
      | succ most => exact absurd hbounds (hnone most bound rest rfl)
  | case4 most type position id hid e hname =>
    exact ⟨0, 0, type, position, Nat.zero_le _, .here, .inr (.inl ⟨e, .string hid hname⟩)⟩
  | case5 most type position id hid element helement _ _ _ hname ih
  | case6 most type position id hid element helement _ _ _ hname ih =>
    obtain ⟨arrays, bounds, last, lastPosition, hle, hleads, hlast⟩ := ih
    exact ⟨arrays + 1, bounds, last, lastPosition, hle, .element hid hname helement hleads, hlast⟩
  | case7 most type position id hid hnone hname =>
    exact ⟨0, 0, type, position, Nat.zero_le _, .here, .inl ⟨_, .noElement hid hname hnone⟩⟩
  | case8 most type position id hid name hname harray =>
    exact ⟨0, 0, type, position, Nat.zero_le _, .here, .inl ⟨_, .named hid hname harray⟩⟩

theorem Leads.trans {arrays' bounds' : Nat} {middle : TypeRef} {middlePosition : TypePosition}
    (h : scope.Leads arrays bounds type position middle middlePosition)
    (h' : scope.Leads arrays' bounds' middle middlePosition last lastPosition) :
    scope.Leads (arrays + arrays') (bounds + bounds') type position last lastPosition := by
  induction h with
  | here => rwa [Nat.zero_add, Nat.zero_add]
  | element hid hname helement h ih =>
    rw [Nat.succ_add]
    exact .element hid hname helement (ih h')
  | bound hid hparam hbound h ih =>
    rw [Nat.succ_add]
    exact .bound hid hparam hbound (ih h')

/-- A type that leads no further has neither elements nor a bound to follow. -/
theorem Ends.eq_zero_of_leads {leaf : String} (h : scope.Ends type position leaf)
    (hleads : scope.Leads arrays bounds type position last lastPosition) :
    arrays = 0 ∧ bounds = 0 := by
  cases hleads with
  | here => exact ⟨rfl, rfl⟩
  | element hid hname helement =>
    cases h with
    | unbounded hid' => cases hid.symm.trans hid'
    | noElement hid' hname' hnone => cases helement.symm.trans hnone
    | named hid' hname' harray =>
      obtain rfl := Classifier.named.inj (hid.symm.trans hid')
      exact absurd (Except.ok.inj (hname'.symm.trans hname)) harray
  | bound hid hparam hbound =>
    cases h with
    | unbounded hid' hparam' hbounds =>
      obtain rfl := Classifier.typeParameter.inj (hid.symm.trans hid')
      obtain rfl := Option.some.inj (hparam.symm.trans hparam')
      rw [hbounds] at hbound
      cases hbound
    | noElement hid' => cases hid.symm.trans hid'
    | named hid' => cases hid.symm.trans hid'

/-- All that a type leads to lies on one way, so what leads no further is its end. -/
theorem Leads.extend {leaf : String} {arrays' bounds' : Nat} {middle : TypeRef}
    {middlePosition : TypePosition}
    (h : scope.Leads arrays bounds type position last lastPosition)
    (hends : scope.Ends last lastPosition leaf)
    (hmiddle : scope.Leads arrays' bounds' type position middle middlePosition) :
    ∃ arrays'' bounds'', arrays = arrays' + arrays'' ∧ bounds = bounds' + bounds'' ∧
      scope.Leads arrays'' bounds'' middle middlePosition last lastPosition := by
  induction hmiddle generalizing arrays bounds with
  | here => exact ⟨arrays, bounds, (Nat.zero_add _).symm, (Nat.zero_add _).symm, h⟩
  | element hid hname helement hmiddle ih =>
    cases h with
    | here => exact absurd (hends.eq_zero_of_leads (.element hid hname helement hmiddle)).1 (by simp)
    | element hid' hname' helement' h =>
      obtain rfl := Option.some.inj (helement.symm.trans helement')
      obtain ⟨arrays'', bounds'', rfl, rfl, hrest⟩ := ih h
      exact ⟨arrays'', bounds'', Nat.add_right_comm .., rfl, hrest⟩
    | bound hid' => cases hid.symm.trans hid'
  | bound hid hparam hbound hmiddle ih =>
    cases h with
    | here => exact absurd (hends.eq_zero_of_leads (.bound hid hparam hbound hmiddle)).2 (by simp)
    | element hid' => cases hid.symm.trans hid'
    | bound hid' hparam' hbound' h =>
      obtain rfl := Classifier.typeParameter.inj (hid.symm.trans hid')
      obtain rfl := Option.some.inj (hparam.symm.trans hparam')
      obtain rfl := Option.some.inj (hbound.symm.trans hbound')
      obtain ⟨arrays'', bounds'', rfl, rfl, hrest⟩ := ih h
      exact ⟨arrays'', bounds'', rfl, Nat.add_right_comm .., hrest⟩

theorem IsBounded.exists_leads (h : scope.IsBounded type) (position : TypePosition) :
    ∃ bound, scope.Leads 0 1 type position bound .argument := by
  obtain ⟨id, param, hid, hparam, hbounds⟩ := h
  obtain ⟨bound, rest, hbounds⟩ := List.exists_cons_of_ne_nil hbounds
  exact ⟨bound, .bound hid hparam (by rw [hbounds, List.head?_cons]) .here⟩

/-- Where a bound is left to follow, the way has not ended before. -/
theorem Cuts.lt_of_erases {text text' : String} {most : Nat} (h : scope.Cuts most type position text)
    (herases : scope.Erases bounds type position text') : most < bounds := by
  obtain ⟨arrays, middle, middlePosition, hmiddle, hbounded, -⟩ := h
  obtain ⟨arrays', last, lastPosition, leaf, hleads, hends, -⟩ := herases
  obtain ⟨_, left, -, rfl, hrest⟩ := hleads.extend hends hmiddle
  obtain ⟨bound, hbound⟩ := hbounded.exists_leads middlePosition
  obtain ⟨_, left, -, rfl, -⟩ := hrest.extend hends hbound
  omega

/-- If following the bounds ends after at most 16 of them, the descriptor that it ends with is the result.
Otherwise the result has any object in place of the type parameter that is reached after 16 bounds. It is
an error exactly if a type parameter or a string is not there that is reached before, and it is that
error. -/
theorem encode_erases_or_cuts (scope : Scope) (type : TypeRef) (position : TypePosition) :
    (∀ bounds text, bounds ≤ 16 → scope.Erases bounds type position text →
      scope.encode type position = .ok text) ∧
    ((∀ bounds text, bounds ≤ 16 → ¬ scope.Erases bounds type position text) →
      ∀ text, scope.encode type position = .ok text ↔ scope.Cuts 16 type position text) ∧
    ∀ e, scope.encode type position = .error e ↔
      ∃ arrays bounds last lastPosition, bounds ≤ 16 ∧
        scope.Leads arrays bounds type position last lastPosition ∧ scope.Fails last e := by
  obtain ⟨arrays, bounds, last, lastPosition, hle, hleads, hlast⟩ := scope.exists_leads 16 type position
  refine ⟨fun _ _ hle h => encodeWithin_of_erases h hle, fun hnot text =>
    ⟨fun h => ?_, encodeWithin_of_cuts⟩, fun e => ⟨fun h => ?_, ?_⟩⟩
  · rcases hlast with ⟨leaf, hends⟩ | ⟨e, hfails⟩ | ⟨rfl, hbounded⟩
    · exact absurd ⟨arrays, last, lastPosition, leaf, hleads, hends, rfl⟩ (hnot bounds _ hle)
    · cases h.symm.trans (encodeWithin_of_leads_fails hleads hfails hle)
    · have hcuts : scope.Cuts 16 type position (arrayStart arrays ++ objectDescriptor) :=
        ⟨arrays, last, lastPosition, hleads, hbounded, rfl⟩
      obtain rfl := Except.ok.inj (h.symm.trans (encodeWithin_of_cuts hcuts))
      exact hcuts
  · rcases hlast with ⟨leaf, hends⟩ | ⟨e', hfails⟩ | ⟨rfl, hbounded⟩
    · cases h.symm.trans
        (encodeWithin_of_erases ⟨arrays, last, lastPosition, leaf, hleads, hends, rfl⟩ hle)
    · obtain rfl := Except.error.inj (h.symm.trans (encodeWithin_of_leads_fails hleads hfails hle))
      exact ⟨arrays, bounds, last, lastPosition, hle, hleads, hfails⟩
    · cases h.symm.trans (encodeWithin_of_cuts ⟨arrays, last, lastPosition, hleads, hbounded, rfl⟩)
  · rintro ⟨arrays, bounds, last, lastPosition, hle, hleads, hfails⟩
    exact encodeWithin_of_leads_fails hleads hfails hle

/-- The scope of as many type parameters, each bounded by the next one and the last one by numbers. -/
def chain (length : Nat) : Scope where
  strings := ⟨⟨["kotlin/Int"]⟩⟩
  typeParameters := (List.range length).map fun i =>
    { id := i, name := ⟨0⟩,
      upperBounds := [if i + 1 < length then .typeParameter (i + 1) else .named ⟨0⟩] }

/-- The scope of a type parameter that is bounded by the arrays of its own values. -/
def cycle : Scope where
  strings := ⟨⟨["kotlin/Array"]⟩⟩
  typeParameters :=
    [{ id := 0, name := ⟨0⟩, upperBounds := [(TypeRef.named ⟨0⟩).addArgument (.typeParameter 0)] }]

/-- A chain of 16 bounds is followed to its end, and a cycle for as many bounds. -/
theorem encode_chain_cycle :
    (chain 16).encode (.typeParameter 0) .value = .ok "Ljava/lang/Integer;" ∧
      cycle.encode (.typeParameter 0) .value = .ok "[[[[[[[[[[[[[[[[Ljava/lang/Object;" := by
  have hchain : (chain 16).Erases 16 (.typeParameter 0) .value "Ljava/lang/Integer;" := by
    refine ⟨0, .named ⟨0⟩, .argument, _, ?_, .named rfl rfl (by decide), by decide⟩
    iterate 16 refine .bound rfl rfl rfl ?_
    exact .here
  have hcycle : cycle.Cuts 16 (.typeParameter 0) .value
      "[[[[[[[[[[[[[[[[Ljava/lang/Object;" := by
    refine ⟨16, .typeParameter 0, .argument, ?_, ⟨0, _, rfl, rfl, by decide⟩, by decide⟩
    iterate 16 refine .bound rfl rfl rfl (.element rfl rfl rfl ?_)
    exact .here
  have hnot (bounds : Nat) (text : String) (hle : bounds ≤ 16) :
      ¬ cycle.Erases bounds (.typeParameter 0) .value text := fun herases =>
    Nat.not_lt_of_le hle (hcycle.lt_of_erases herases)
  exact ⟨((chain 16).encode_erases_or_cuts _ _).1 16 _ (by decide) hchain,
    ((cycle.encode_erases_or_cuts _ _).2.1 hnot _).mpr hcycle⟩

end Correspondence.Scope
