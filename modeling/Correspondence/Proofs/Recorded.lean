import Correspondence.Proofs.Members
import Correspondence.Proofs.Tree
import Correspondence.Resolution

/-!
# Recorded members of properties

A getter, a setter and a holder of annotations are only taken where their signatures are recorded. A
field is taken by its name alone. So a property takes no field but a recorded one exactly if it
records one or no field has its name, and then it is never in the way of another property.
-/

namespace Correspondence

namespace PropertyAssembler

variable {a : PropertyAssembler} {p : IndexedProperty} {found : PropertyMatch}

/-- Whether a property takes no field but a recorded one: it records one, or no field has its name. -/
def KnowsField (a : PropertyAssembler) (p : IndexedProperty) : Prop :=
  p.hasField ∨ ∀ d ∈ a.host.members a.owner .field, a.host.simpleName d ≠ p.name

theorem field_eq_some_iff (h : a.assemble p = .ok found) {d : DeclId} :
    found.field = some d ↔ d ∈ a.host.members a.owner .field ∧ a.host.simpleName d = p.name :=
  field_eq_ok (assemble_eq_ok h).1

theorem hasField_iff_knowsField (h : a.assemble p = .ok found) :
    (found.field.isSome → p.hasField) ↔ a.KnowsField p := by
  constructor
  · intro hrecorded
    by_cases hfield : found.field.isSome
    · exact .inl (hrecorded hfield)
    · refine .inr fun d hd hname => hfield ?_
      rw [(field_eq_some_iff h).mpr ⟨hd, hname⟩]
      rfl
  · rintro (hfield | hnone) hsome
    · exact hfield
    · obtain ⟨d, hd⟩ := Option.isSome_iff_exists.mp hsome
      obtain ⟨hmem, hname⟩ := (field_eq_some_iff h).mp hd
      exact absurd hname (hnone d hmem)

theorem accessor_isSome (h : a.assemble p = .ok found) {role : AccessorRole} (hrole : role ≠ .field)
    (hsome : (found.get? role).isSome) : (p.accessor role).isSome := by
  obtain ⟨d, hd⟩ := Option.isSome_iff_exists.mp hsome
  rw [((accessor_eq_ok ((assemble_eq_ok h).2 role hrole)).mp hd).2]
  rfl

/-- The members of a property are methods, but for the field with its name. -/
theorem method_or_field_of_assemble (h : a.assemble p = .ok found) {d : DeclId}
    (hd : d ∈ found.hosts.map Prod.snd) :
    d ∈ a.host.members a.owner .method ∨
      d ∈ a.host.members a.owner .field ∧ a.host.simpleName d = p.name := by
  obtain ⟨⟨role, d'⟩, hmem, rfl⟩ := List.mem_map.mp hd
  obtain ⟨role', -, hrole⟩ := List.mem_filterMap.mp hmem
  obtain ⟨x, hx, heq⟩ := Option.map_eq_some_iff.mp hrole
  obtain ⟨rfl, rfl⟩ := Prod.mk.inj heq
  by_cases hfield : role' = .field
  · subst hfield
    exact .inr ((field_eq_some_iff h).mp hx)
  · exact .inl ((accessor_eq_ok ((assemble_eq_ok h).2 role' hfield)).mp hx).1

/-- Whether a failure is that of a declaration that two elements claim. -/
private def IsDoubleClaim : ResolveError → Prop
  | .doubleClaim _ _ _ => True
  | _ => False

private theorem unique_ne_doubleClaim {descriptor : String} {l : List DeclId} {e : ResolveError}
    (h : a.unique descriptor l = .error e) : ¬ IsDoubleClaim e := by
  unfold unique at h
  split at h
  · cases h
  · cases h
  · obtain rfl := Except.error.inj h
    exact id

private theorem accessor_ne_doubleClaim {role : AccessorRole} {e : ResolveError}
    (h : a.accessor p role = .error e) : ¬ IsDoubleClaim e := by
  unfold accessor at h
  split at h
  · cases h
  rcases Except.bind_eq_error_iff.mp h with h | ⟨found, -, h⟩
  · exact unique_ne_doubleClaim h
  split at h
  · cases h
  split at h
  · obtain rfl := Except.error.inj h
    exact id
  · cases h

/-- Looking for the members of a property claims nothing, so it finds nothing claimed twice. -/
theorem assemble_ne_doubleClaim {host earlier later : String} :
    a.assemble p ≠ .error (.doubleClaim host earlier later) := by
  intro h
  suffices hnot : ¬ IsDoubleClaim (.doubleClaim host earlier later) from hnot trivial
  generalize ResolveError.doubleClaim host earlier later = e at h ⊢
  unfold assemble at h
  split at h
  · obtain rfl := Except.error.inj h
    exact id
  rcases Except.bind_eq_error_iff.mp h with h | ⟨field, -, h⟩
  · exact unique_ne_doubleClaim h
  rcases Except.bind_eq_error_iff.mp h with h | ⟨getter, -, h⟩
  · exact accessor_ne_doubleClaim h
  rcases Except.bind_eq_error_iff.mp h with h | ⟨setter, -, h⟩
  · exact accessor_ne_doubleClaim h
  rcases Except.bind_eq_error_iff.mp h with h | ⟨holder, -, h⟩
  · exact accessor_ne_doubleClaim h
  dsimp only at h
  split at h
  · obtain rfl := Except.error.inj h
    exact id
  · cases h

end PropertyAssembler

/-- A declaration of one kind is none of another kind. -/
theorem Host.not_mem_members_of_ne {host : Host} {owner d : DeclId} {kind kind' : DeclKind}
    (hne : kind ≠ kind') (hd : d ∈ host.members owner kind) : d ∉ host.members owner kind' := by
  intro hd'
  have hk : host.kind d = kind := of_decide_eq_true (List.mem_filter.mp hd).2
  have hk' : host.kind d = kind' := of_decide_eq_true (List.mem_filter.mp hd').2
  exact hne (hk.symm.trans hk')

namespace Container

variable {c : Container} {b b' : Batch}

/-- Making a property fails where its members are not found, or over one of them that is claimed. -/
theorem buildProperty_eq_error {x : IndexedProperty × PropertyDescriptor} {e : ResolveError}
    (h : c.buildProperty x b = .error e) :
    c.assembler.assemble x.1 = .error e ∨ ∃ found, c.assembler.assemble x.1 = .ok found ∧
      ∃ d ∈ found.hosts.map Prod.snd, (∃ j, b.claims.find? d = some j) ∧
        ∃ earlier later, e = .doubleClaim (c.host.describe d) earlier later := by
  obtain ⟨indexed, descriptor⟩ := x
  rcases BuildM.bind_eq_error_iff.mp h with hlift | ⟨found, b₁, hlift, h₁⟩
  · exact .inl (BuildM.lift_eq_error_iff.mp hlift)
  obtain ⟨hfound, rfl⟩ := BuildM.lift_eq_ok_iff.mp hlift
  refine .inr ⟨found, hfound, ?_⟩
  rcases BuildM.bind_eq_error_iff.mp h₁ with hpush | ⟨id, b₂, hpush, h₂⟩
  · cases hpush
  obtain ⟨rfl, rfl⟩ := Prod.mk.inj (Except.ok.inj hpush)
  rcases BuildM.bind_eq_error_iff.mp h₂ with hclaim | ⟨u, b₃, -, hpure⟩
  · obtain ⟨d, hd, ⟨j, hj, -⟩, htext⟩ := BuildM.claimAll_eq_error hclaim
    exact ⟨d, hd, ⟨j, hj⟩, htext⟩
  · cases hpure

/-- Making a property claims no field but the one with its name. -/
theorem claims_of_buildProperty {x : IndexedProperty × PropertyDescriptor} {id j : ElementId}
    (h : c.buildProperty x b = .ok (id, b')) {d : DeclId} (hd : d ∈ c.host.members c.decl .field)
    (hj : b'.claims.find? d = some j) :
    b.claims.find? d = some j ∨ c.host.simpleName d = x.1.name := by
  obtain ⟨e, ⟨found, hfound, rfl⟩, hadded⟩ := buildProperty_ok h
  rw [hadded.claims, hostForms_propertyElement] at hj
  split at hj
  · rename_i hmem
    rcases PropertyAssembler.method_or_field_of_assemble hfound hmem with hmethod | ⟨-, hname⟩
    · exact absurd hd (Host.not_mem_members_of_ne (by decide) hmethod)
    · exact .inr hname
  · exact .inl hj

/-- Making a list of properties claims no field but those with the names of some of them. -/
theorem claims_of_mapM_buildProperty {l : List (IndexedProperty × PropertyDescriptor)}
    {ids : List ElementId} (h : l.mapM c.buildProperty b = .ok (ids, b')) {d : DeclId}
    (hd : d ∈ c.host.members c.decl .field) {j : ElementId} (hj : b'.claims.find? d = some j) :
    b.claims.find? d = some j ∨ ∃ x ∈ l, c.host.simpleName d = x.1.name := by
  induction l generalizing b ids with
  | nil =>
    obtain ⟨-, rfl⟩ := BuildM.pure_eq_ok_iff.mp h
    exact .inl hj
  | cons x l ih =>
    rw [List.mapM_cons] at h
    obtain ⟨id, b₁, hx, h⟩ := BuildM.bind_eq_ok_iff.mp h
    obtain ⟨ids', b₂, hl, h⟩ := BuildM.bind_eq_ok_iff.mp h
    obtain ⟨-, rfl⟩ := BuildM.pure_eq_ok_iff.mp h
    rcases ih hl with hj | ⟨y, hy, hname⟩
    · rcases claims_of_buildProperty hx hd hj with hj | hname
      · exact .inl hj
      · exact .inr ⟨x, List.mem_cons_self, hname⟩
    · exact .inr ⟨y, List.mem_cons_of_mem _ hy, hname⟩

/-- Whether the properties of a class or file take no fields but recorded ones. -/
def KnowsFields (c : Container) (index : DescriptorIndex) : Prop :=
  ∀ p ∈ index.properties, c.assembler.KnowsField p

/-- Whether some property records a field and has the name of the given one. -/
def RecordsField (c : Container) (index : DescriptorIndex) (d : DeclId) : Prop :=
  d ∈ c.host.members c.decl .field ∧
    ∃ p ∈ index.properties, p.hasField ∧ p.name = c.host.simpleName d

variable {index : DescriptorIndex} {descriptors : List PropertyDescriptor}

theorem recordsField_of_knowsFields (h : c.KnowsFields index) {p : IndexedProperty}
    (hp : p ∈ index.properties) {d : DeclId} (hd : d ∈ c.host.members c.decl .field)
    (hname : c.host.simpleName d = p.name) : c.RecordsField index d := by
  refine ⟨hd, p, hp, ?_, hname.symm⟩
  rcases h p hp with hfield | hnone
  · exact hfield
  · exact absurd hname (hnone d hd)

/-- Where no field is taken but recorded ones, none is claimed but for a property that records it. -/
theorem recordsField_of_claim (hknows : c.KnowsFields index) {ids : List ElementId}
    (h : c.buildProperties index descriptors b = .ok (ids, b')) {d : DeclId}
    (hd : d ∈ c.host.members c.decl .field) {j : ElementId} (hj : b'.claims.find? d = some j) :
    b.claims.find? d = some j ∨ c.RecordsField index d := by
  rcases claims_of_mapM_buildProperty h hd hj with hj | ⟨x, hx, hname⟩
  · exact .inl hj
  · exact .inr (recordsField_of_knowsFields hknows (List.of_mem_zip hx).1 hd hname)

/-- Where no field is taken but recorded ones, no property is in the way of another one over a field
that it does not record. -/
theorem recordsField_of_doubleClaim (hknows : c.KnowsFields index) {host earlier later : String}
    (h : c.buildProperties index descriptors b = .error (.doubleClaim host earlier later)) :
    ∃ d, host = c.host.describe d ∧
      (d ∈ c.host.members c.decl .method ∨ c.RecordsField index d) := by
  obtain ⟨x, hx, b₁, hfails⟩ := BuildM.exists_of_mapM_eq_error h
  rcases buildProperty_eq_error hfails with hnotFound | ⟨found, hfound, d, hd, -, _, _, htext⟩
  · exact absurd hnotFound PropertyAssembler.assemble_ne_doubleClaim
  · refine ⟨d, (ResolveError.doubleClaim.inj htext).1, ?_⟩
    rcases PropertyAssembler.method_or_field_of_assemble hfound hd with hmethod | ⟨hfield, hname⟩
    · exact .inl hmethod
    · exact .inr (recordsField_of_knowsFields hknows (List.of_mem_zip hx).1 hfield hname)

/-- The members of a property are recorded, but for a field: a property that records none takes none
exactly if no field has its name. In a class or file in which this holds of all properties, a field is
claimed for no property but one that records it, and none is in the way of another one over a field
that is not recorded. -/
theorem recorded_of_assemble (c : Container) (index : DescriptorIndex)
    (descriptors : List PropertyDescriptor) (b : Batch) :
    (∀ p found, c.assembler.assemble p = .ok found →
      ((found.field.isSome → p.hasField) ↔ c.assembler.KnowsField p) ∧
        ∀ role, role ≠ .field → (found.get? role).isSome → (p.accessor role).isSome) ∧
    (c.KnowsFields index →
      (∀ ids b', c.buildProperties index descriptors b = .ok (ids, b') →
        ∀ d ∈ c.host.members c.decl .field, ∀ j, b'.claims.find? d = some j →
          b.claims.find? d = some j ∨ c.RecordsField index d) ∧
      ∀ host earlier later,
        c.buildProperties index descriptors b = .error (.doubleClaim host earlier later) →
          ∃ d, host = c.host.describe d ∧
            (d ∈ c.host.members c.decl .method ∨ c.RecordsField index d)) := by
  refine ⟨fun p found h => ⟨PropertyAssembler.hasField_iff_knowsField h, ?_⟩,
    fun hknows => ⟨?_, ?_⟩⟩
  · intro role hrole hsome
    exact PropertyAssembler.accessor_isSome h hrole hsome
  · intro ids b' h d hd j hj
    exact recordsField_of_claim hknows h hd hj
  · intro host earlier later h
    exact recordsField_of_doubleClaim hknows h

end Container

/-- A class with a field `x`, its getter and the getter of an extension property. -/
def DeclTree.namesakes (metadata : ClassMetadata) : DeclTree :=
  let t := ({} : DeclTree).addPackage "p"
  let t := t.addType ⟨0⟩ .classType "C"
  let t := t.addField ⟨1⟩ "x" .int
  let t := t.addMethod ⟨1⟩ "getX" .int
  let t := t.addMethod ⟨1⟩ "getX" .int
  let t := t.addParameter ⟨4⟩ "$this" (.object "java/lang/String")
  t.attach ⟨1⟩ (.ofClass metadata)

/-- The metadata of the class, in which the extension property has the name of the field. -/
def ClassMetadata.namesakes : ClassMetadata where
  strings := .ofList
    ["p/C", "x", "getX", "()I", "(Ljava/lang/String;)I", "kotlin/Int", "kotlin/String", "I"]
  descriptor :=
    { qualifiedName := ⟨0⟩, kind := .regular
      properties := [
        { name := ⟨1⟩, returnType := .named ⟨5⟩
          members := { field := some ⟨none, ⟨7⟩⟩, getter := some ⟨⟨2⟩, ⟨3⟩⟩ } },
        { name := ⟨1⟩, returnType := .named ⟨5⟩, receiver := some (.named ⟨6⟩)
          members := { getter := some ⟨⟨2⟩, ⟨4⟩⟩ } }] }

/-- The property with the field. -/
def IndexedProperty.backed : IndexedProperty :=
  { name := "x", hasField := true, getter := some "getX()I" }

/-- The extension property, by any name. -/
def IndexedProperty.extending (name : String) : IndexedProperty :=
  { name, getter := some "getX(Ljava/lang/String;)I", hasReceiver := true }

/-- The index of the class. -/
def DescriptorIndex.namesakes : DescriptorIndex where
  owner := "p.C"
  properties := [.backed, .extending "x"]
  accessorPositions :=
    ⟨[("getX(Ljava/lang/String;)I", (1, .getter)), ("getX()I", (0, .getter))]⟩

namespace Container

/-- The class whose properties are made. -/
def namesakes : Container :=
  { host := (DeclTree.namesakes .namesakes).toHost, decl := ⟨1⟩, owner := ⟨0⟩, verifyShapes := true }

/-- By another name the extension property takes no field, and the field is claimed for the property
that records it. -/
theorem recorded_namesakes :
    (∃ found, namesakes.assembler.assemble (.extending "y") = .ok found ∧ found.field = none ∧
      found.getter = some ⟨4⟩) ∧
    ∃ ids b', namesakes.buildProperties
        { owner := "p.C", properties := [.backed, .extending "y"] }
        ClassMetadata.namesakes.descriptor.properties { base := 0 } = .ok (ids, b') ∧
      namesakes.RecordsField { owner := "p.C", properties := [.backed, .extending "y"] } ⟨2⟩ := by
  have hknows : namesakes.KnowsFields { owner := "p.C", properties := [.backed, .extending "y"] } := by
    intro p hp
    rcases List.mem_cons.mp hp with rfl | hp
    · exact .inl rfl
    · obtain rfl := List.mem_singleton.mp hp
      exact .inr (by decide)
  obtain ⟨hassemble, hbuild⟩ := recorded_of_assemble namesakes
    { owner := "p.C", properties := [.backed, .extending "y"] }
    ClassMetadata.namesakes.descriptor.properties { base := 0 }
  refine ⟨⟨_, rfl, ?_, rfl⟩, _, _, rfl, ?_⟩
  · obtain ⟨hiff, -⟩ := hassemble (.extending "y") _ rfl
    refine Option.not_isSome_iff_eq_none.mp fun hfield => Bool.false_ne_true ?_
    exact hiff.mpr (hknows _ (List.mem_cons_of_mem _ List.mem_cons_self)) hfield
  · obtain ⟨hclaims, -⟩ := hbuild hknows
    rcases hclaims _ _ rfl ⟨2⟩ (by decide) ⟨0⟩ rfl with hbefore | hrecords
    · cases hbefore
    · exact hrecords

/-- A property that records no field takes one with its name. In the class in which another property
records that field, making the properties fails. -/
theorem not_forall_recorded :
    (¬ ∀ (a : PropertyAssembler) (p : IndexedProperty) (found : PropertyMatch),
      a.assemble p = .ok found → found.field.isSome → p.hasField) ∧
    DescriptorIndex.ofClass "p.C" .namesakes = .ok .namesakes ∧
    namesakes.buildProperties .namesakes ClassMetadata.namesakes.descriptor.properties { base := 0 } =
      .error (.doubleClaim "p.C.x" "property `x`" "property `x`") := by
  refine ⟨fun h => ?_, rfl, rfl⟩
  have hfield := h namesakes.assembler (.extending "x") _ rfl rfl
  cases hfield

end Container

end Correspondence
