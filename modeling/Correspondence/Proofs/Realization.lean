import Correspondence.Proofs.Attribution

/-!
# Realized properties

A property has a field, a getter or a setter. What it has are members of the compiled type, each one
in the role for which its descriptor records it and with the form of that role. No member belongs to
two properties, or to one property in two roles.
-/

namespace Correspondence

/-- The kind of the declarations with a role. -/
def AccessorRole.declKind : AccessorRole → DeclKind
  | .field => .field
  | .getter | .setter | .holder => .method

namespace Host

variable {host : Host} {d : DeclId}

/-- Whether a method has no result. -/
def ReturnsVoid (host : Host) (d : DeclId) : Prop :=
  ∀ type, host.type d = some type → type = .void

/-- Whether a declaration has the form of a role, for a property with a number of receivers. -/
def HasForm (host : Host) (receivers : Nat) (d : DeclId) : AccessorRole → Prop
  | .field => True
  | .getter => (host.parameters d).length = receivers ∧ ¬ host.ReturnsVoid d
  | .setter => (host.parameters d).length = receivers + 1 ∧ host.ReturnsVoid d
  | .holder => (host.parameters d).length ≤ receivers ∧ host.ReturnsVoid d ∧
      holderNameEnd.toList <:+ (host.simpleName d).toList

theorem returnsVoid_of_shape : (AccessorShape.of host d).returnsVoid ↔ host.ReturnsVoid d := by
  cases htype : host.type d <;> simp [AccessorShape.of, ReturnsVoid, htype]

/-- The cases of the classification do not overlap, so their order decides nothing. -/
theorem role?_shape_eq_some_iff {hasReceiver : Bool} {role : AccessorRole} (hrole : role ≠ .field) :
    (AccessorShape.of host d).role? hasReceiver = some role ↔
      host.HasForm hasReceiver.toNat d role := by
  have hname : (AccessorShape.of host d).hasHolderName ↔
      holderNameEnd.toList <:+ (host.simpleName d).toList := List.isSuffixOf_iff_suffix
  have hparameters : (AccessorShape.of host d).parameters = (host.parameters d).length := rfl
  cases role with
  | field => exact absurd rfl hrole
  | _ =>
    simp only [AccessorShape.role?, HasForm, ← returnsVoid_of_shape, ← hname, hparameters]
    cases hasReceiver <;> grind

end Host

/-- The strings and the property descriptors of a class or file. -/
def Metadata.properties? : Metadata → Option (StringTable × List PropertyDescriptor)
  | .ofClass metadata => some (metadata.strings, metadata.descriptor.properties)
  | .fileFacade metadata => some (metadata.strings, metadata.descriptor.properties)
  | _ => none

/-- Whether a property of a compiled type has what its descriptor calls for. -/
structure PropertyElement.Realizes (p : PropertyElement) (host : Host) (owner : DeclId)
    (verifyShapes : Bool) (strings : StringTable) (d : PropertyDescriptor) : Prop where
  name : strings.get d.name = .ok p.name
  isExtension : p.isExtension = d.receiver.isSome
  /-- Annotations alone make no property. -/
  present : ∃ role, role ≠ .holder ∧ (p.member? role).isSome
  member {role : AccessorRole} {m : DeclId} :
    p.member? role = some m → m ∈ host.members owner role.declKind
  signature {role : AccessorRole} {m : DeclId} : role ≠ .field → p.member? role = some m →
    ∃ s, d.members.accessor role = some s ∧ Scope.recorded ⟨strings, []⟩ s = .ok (host.signature m)
  form {role : AccessorRole} {m : DeclId} :
    verifyShapes → p.member? role = some m → host.HasForm p.isExtension.toNat m role

theorem Scope.recorded?_eq_ok_some_iff {scope : Scope} {signature : Option MethodSignature}
    {text : String} : scope.recorded? signature = .ok (some text) ↔
      ∃ s, signature = some s ∧ scope.recorded s = .ok text := by
  cases signature with
  | none => simp [recorded?]
  | some s => simp [recorded?, Except.map_eq_ok_iff]

theorem PropertyMatch.exists_role_of_not_isEmpty {found : PropertyMatch} (h : ¬ found.isEmpty) :
    ∃ role, role ≠ .holder ∧ (found.get? role).isSome := by
  simp only [isEmpty, Bool.and_eq_true, Option.isNone_iff_eq_none, not_and_or,
    ← Option.isSome_iff_ne_none] at h
  rcases h with (h | h) | h
  · exact ⟨.field, by decide, h⟩
  · exact ⟨.getter, by decide, h⟩
  · exact ⟨.setter, by decide, h⟩

/-- Where forms are verified, the accessor that is found has the form of its role. -/
theorem PropertyAssembler.hasForm_of_accessor {a : PropertyAssembler} {p : IndexedProperty}
    {role : AccessorRole} (hrole : role ≠ .field) {m : DeclId}
    (h : a.accessor p role = .ok (some m)) (hverify : a.verifyShapes) :
    a.host.HasForm p.hasReceiver.toNat m role := by
  unfold accessor at h
  split at h
  · cases h
  obtain ⟨only, -, h⟩ := Except.bind_eq_ok_iff.mp h
  split at h
  · cases h
  split at h
  · cases h
  rename_i hshape
  obtain rfl := Option.some.inj (Except.ok.inj h)
  rw [hverify, Bool.true_and, decide_eq_true_eq, not_not] at hshape
  exact (Host.role?_shape_eq_some_iff hrole).mp hshape

theorem Host.properties_of_index? {host : Host} {decl : DeclId} {index : DescriptorIndex}
    (h : host.index? decl = some index) :
    ∃ strings descriptors,
      (host.metadata decl).bind Metadata.properties? = some (strings, descriptors) ∧
        List.Forall₂ (IndexedProperty.MadeFrom strings) index.properties descriptors := by
  unfold index? at h
  split at h
  · rename_i metadata hmetadata
    rw [hmetadata]
    exact ⟨_, _, rfl, DescriptorIndex.properties_ofClass (Except.toOption_eq_some_iff.mp h)⟩
  · rename_i metadata hmetadata
    rw [hmetadata]
    exact ⟨_, _, rfl, DescriptorIndex.properties_ofPackage (Except.toOption_eq_some_iff.mp h)⟩
  · cases h

namespace Container

variable {c : Container} {index : DescriptorIndex} {b : Batch} {id : ElementId}
  {p : PropertyElement} {x : IndexedProperty × PropertyDescriptor} {found : PropertyMatch}

@[simp] theorem member?_propertyElement (role : AccessorRole) :
    (c.propertyElement found x).member? role = found.get? role := by
  cases role <;> rfl

/-- What is found for a property is a member of the type, in the role that is recorded for it. -/
theorem assembled_member (hfound : c.assembler.assemble x.1 = .ok found) {role : AccessorRole}
    {m : DeclId} (hm : found.get? role = some m) :
    m ∈ c.host.members c.decl role.declKind ∧
      (role ≠ .field → x.1.accessor role = some (c.host.signature m)) := by
  obtain ⟨hfield, haccessor⟩ := PropertyAssembler.assemble_eq_ok hfound
  by_cases hrole : role = .field
  · subst hrole
    exact ⟨((PropertyAssembler.field_eq_ok hfield).mp hm).1, absurd rfl⟩
  · obtain ⟨hmem, hsignature⟩ := (PropertyAssembler.accessor_eq_ok (haccessor role hrole)).mp hm
    have hkind : role.declKind = .method := by cases role <;> first | rfl | exact absurd rfl hrole
    exact ⟨hkind ▸ hmem, fun _ => hsignature⟩

/-- A property that is assembled from a descriptor has what the descriptor calls for. -/
theorem realizes_of_assemble (hfound : c.assembler.assemble x.1 = .ok found)
    (hdescribes : x.1.Describes x.2) {strings : StringTable} {d : PropertyDescriptor}
    (hmade : x.1.MadeFrom strings d) :
    (c.propertyElement found x).Realizes c.host c.decl c.verifyShapes strings d := by
  obtain ⟨-, hfield, haccessor, hempty⟩ := PropertyAssembler.assemble_eq_ok_iff.mp hfound
  refine ⟨hmade.name, hdescribes.symm.trans hmade.describes, ?_, ?_, ?_, ?_⟩
  · simp only [member?_propertyElement]
    exact PropertyMatch.exists_role_of_not_isEmpty hempty
  · intro role m hm
    exact (assembled_member hfound (member?_propertyElement role ▸ hm)).1
  · intro role m hrole hm
    have hsignature := (assembled_member hfound (member?_propertyElement role ▸ hm)).2 hrole
    exact Scope.recorded?_eq_ok_some_iff.mp (hsignature ▸ hmade.accessor role)
  · intro role m hverify hm
    by_cases hrole : role = .field
    · subst hrole
      trivial
    · rw [member?_propertyElement] at hm
      have hform := PropertyAssembler.hasForm_of_accessor hrole (hm ▸ haccessor role hrole) hverify
      have hreceiver : x.1.hasReceiver = (c.propertyElement found x).isExtension := hdescribes
      rwa [hreceiver] at hform

/-- A property of a complete batch is assembled from the descriptor at its place in the list. -/
theorem Complete.exists_assembled (h : c.Complete b) (hp : b.get? id = some (.property p)) :
    ∃ (index : DescriptorIndex) (o : Element) (i : Nat)
      (x : IndexedProperty × PropertyDescriptor) (found : PropertyMatch),
      c.host.index? c.decl = some index ∧ b.get? c.owner = some o ∧
      (o.listed .properties)[i]? = some id ∧ index.properties[i]? = some x.1 ∧
      x.1.Describes x.2 ∧ c.assembler.assemble x.1 = .ok found ∧ p = c.propertyElement found x := by
  obtain ⟨index, o, hindex, ho, hcontents⟩ := h.contents
  obtain ⟨_, _, _, -, hst⟩ := h.stage
  have hplain : c.IsPlainMember (.property p) := hst.accounted hp
  obtain ⟨i, hi⟩ := List.mem_iff_getElem?.mp (hcontents.mem_list hp hplain.owner? rfl)
  obtain ⟨descriptors, hdescribes, hall⟩ := hcontents.properties
  obtain ⟨x, hx, e, ⟨found, hfound, rfl⟩, he⟩ := exists_getElem?_of_forall₂ hall hi
  obtain ⟨hindexed, hdescriptor⟩ := List.getElem?_zip_eq_some.mp hx
  obtain ⟨indexed, hindexed', hdescribes⟩ := exists_getElem?_of_forall₂ hdescribes hdescriptor
  obtain rfl := Option.some.inj (hindexed.symm.trans hindexed')
  obtain rfl := Element.property.inj (Option.some.inj (hp.symm.trans he))
  exact ⟨index, o, i, x, found, hindex, ho, hi, hindexed, hdescribes, hfound, rfl⟩

/-- A property of a complete batch has what the descriptor at its place calls for. -/
theorem Complete.realizes (h : c.Complete b) (hp : b.get? id = some (.property p)) :
    ∃ (o : Element) (strings : StringTable) (descriptors : List PropertyDescriptor)
      (d : PropertyDescriptor) (i : Nat), b.get? c.owner = some o ∧ p.owner = c.owner ∧
      (c.host.metadata c.decl).bind Metadata.properties? = some (strings, descriptors) ∧
      (o.listed .properties)[i]? = some id ∧ descriptors[i]? = some d ∧
      p.Realizes c.host c.decl c.verifyShapes strings d := by
  obtain ⟨index, o, i, x, found, hindex, ho, hi, hindexed, hdescribes, hfound, rfl⟩ :=
    h.exists_assembled hp
  obtain ⟨strings, descriptors, hmetadata, hmade⟩ := Host.properties_of_index? hindex
  obtain ⟨d, hd, hmade⟩ := exists_getElem?_of_forall₂ hmade.flip hindexed
  exact ⟨o, strings, descriptors, d, i, ho, rfl, hmetadata, hi, hd,
    realizes_of_assemble hfound hdescribes hmade⟩

/-- No member of a property has two roles: no two roles have the same recorded signature, and a field is
no method. -/
theorem Complete.role_unique (h : c.Complete b) (hp : b.get? id = some (.property p))
    {role role' : AccessorRole} {m : DeclId} (hm : p.member? role = some m)
    (hm' : p.member? role' = some m) : role = role' := by
  obtain ⟨index, o, i, x, found, hindex, -, -, hindexed, -, hfound, rfl⟩ := h.exists_assembled hp
  obtain ⟨functions, properties, hindexes⟩ := Host.indexes_of_index? hindex
  rw [member?_propertyElement] at hm hm'
  obtain ⟨hmem, hsignature⟩ := assembled_member hfound hm
  obtain ⟨hmem', hsignature'⟩ := assembled_member hfound hm'
  have hkind : role.declKind = role'.declKind :=
    (of_decide_eq_true (List.mem_filter.mp hmem).2).symm.trans
      (of_decide_eq_true (List.mem_filter.mp hmem').2)
  by_cases hrole : role = .field
  · subst hrole
    cases role' <;> first | rfl | cases hkind
  · have hrole' : role' ≠ .field := by
      rintro rfl
      cases role <;> first | exact absurd rfl hrole | cases hkind
    have hfind := hindexes.accessorWith?.mpr ⟨_, hindexed, hsignature hrole⟩
    have hfind' := hindexes.accessorWith?.mpr ⟨_, hindexed, hsignature' hrole'⟩
    exact (Prod.mk.inj (Option.some.inj (hfind.symm.trans hfind'))).2

end Container

namespace Resolver

variable {r : Resolver} {c : Cache} {id : ElementId} {p : PropertyElement}

/-- A property in the cache is one of a batch, with its members. -/
private theorem Faithful.exists_property (h : r.Faithful c)
    (he : c.element? id = some (.property p)) :
    ∃ container b n place p₀, r.batch? container = some b ∧ c.Places b n ∧ id = place.shift n ∧
      b.get? place = some (.property p₀) ∧ p = { p₀ with owner := p₀.owner.shift n } := by
  obtain ⟨container, b, n, place, e₀, hb, hplaces, hid, he₀, hsame⟩ := h.exists_places he rfl
  cases e₀ <;> cases hsame
  exact ⟨container, b, n, place, _, hb, hplaces, hid, he₀, rfl⟩

/-- A property in the cache has what the descriptor at its place calls for. -/
theorem Faithful.realizes (h : r.Faithful c) (linked : r.host.Linked)
    (he : c.element? id = some (.property p)) :
    ∃ (o : Element) (owner : DeclId) (strings : StringTable)
      (descriptors : List PropertyDescriptor) (d : PropertyDescriptor) (i : Nat),
      c.element? p.owner = some o ∧ o.host? = some owner ∧
      (r.host.metadata owner).bind Metadata.properties? = some (strings, descriptors) ∧
      o.properties[i]? = some id ∧ descriptors[i]? = some d ∧
      p.Realizes r.host owner r.config.verifyAccessorShapes strings d := by
  obtain ⟨container, b, n, place, p₀, hb, hplaces, rfl, hp₀, rfl⟩ := h.exists_property he
  obtain ⟨-, -, hcomplete⟩ := batch?_eq_some linked hb
  obtain ⟨o, strings, descriptors, d, i, ho, howner, hmetadata, hi, hd, hrealizes⟩ :=
    hcomplete.realizes hp₀
  obtain ⟨o', ho', -, hforms, -⟩ := hcomplete.container
  obtain rfl := Option.some.inj (ho.symm.trans ho')
  refine ⟨o.mapIds (.shift n), container, strings, descriptors, d, i, ?_, ?_, hmetadata, ?_, hd,
    ⟨hrealizes.name, hrealizes.isExtension, hrealizes.present, hrealizes.member,
      hrealizes.signature, hrealizes.form⟩⟩
  · exact howner ▸ hplaces.element ho
  · rw [Element.host?, Element.hostForms_mapIds, hforms]
    rfl
  · rw [Element.properties_eq_listed, Element.listed_mapIds, List.getElem?_map, hi, Option.map_some]

/-- A member belongs to one property and has one role there. -/
theorem Faithful.eq_of_member? (h : r.Faithful c) (linked : r.host.Linked) {id' : ElementId}
    {p' : PropertyElement} (he : c.element? id = some (.property p))
    (he' : c.element? id' = some (.property p')) {role role' : AccessorRole} {m : DeclId}
    (hm : p.member? role = some m) (hm' : p'.member? role' = some m) : id = id' ∧ role = role' := by
  obtain rfl := h.id_unique he he' (PropertyElement.mem_hosts_of_member? hm)
    (PropertyElement.mem_hosts_of_member? hm')
  obtain rfl := Element.property.inj (Option.some.inj (he.symm.trans he'))
  obtain ⟨container, b, n, place, p₀, hb, -, -, hp₀, rfl⟩ := h.exists_property he
  obtain ⟨-, -, hcomplete⟩ := batch?_eq_some linked hb
  exact ⟨rfl, hcomplete.role_unique hp₀ hm hm'⟩

/-- In every cache that operations lead to, a property has a field, a getter or a setter. Its members
are members of the compiled type that it belongs to, a method only where the descriptor at the place of
the property records its signature for that role, and of the form of the role where forms are verified.
No member belongs to two properties or has two roles. -/
theorem realizes_runAll {t : DeclTree} (built : t.Built) (acyclic : t.toHost.Acyclic)
    (config : Config) (ops : List Operation) :
    let r : Resolver := ⟨t.toHost, config⟩
    let c := r.runAll ops
    (∀ id p, c.element? id = some (.property p) →
      ∃ (o : Element) (owner : DeclId) (strings : StringTable)
        (descriptors : List PropertyDescriptor) (d : PropertyDescriptor) (i : Nat),
        c.element? p.owner = some o ∧ o.host? = some owner ∧
        (r.host.metadata owner).bind Metadata.properties? = some (strings, descriptors) ∧
        o.properties[i]? = some id ∧ descriptors[i]? = some d ∧
        p.Realizes r.host owner config.verifyAccessorShapes strings d) ∧
    ∀ id id' p p' role role' m, c.element? id = some (.property p) →
      c.element? id' = some (.property p') → p.member? role = some m → p'.member? role' = some m →
      id = id' ∧ role = role' := by
  intro r c
  have linked : r.host.Linked := built.linked.toHost
  have h : r.Faithful c := faithful_runAll linked acyclic ops
  exact ⟨fun id p he => h.realizes linked he,
    fun id id' p p' role role' m he he' hm hm' => h.eq_of_member? linked he he' hm hm'⟩

end Resolver

namespace DeclTree

/-- A class with a property, of which all members are compiled, and with a companion. -/
def propertied (outer inner : ClassMetadata) : DeclTree :=
  let t := ({} : DeclTree).addPackage "p"
  let t := t.addType ⟨0⟩ .classType "C"
  let t := t.addField ⟨1⟩ "v" .int
  let t := t.addMethod ⟨1⟩ "getV" .int
  let t := t.addMethod ⟨1⟩ "setV" .void
  let t := t.addParameter ⟨4⟩ "v" .int
  let t := t.addMethod ⟨1⟩ "getV$annotations" .void
  let t := t.addType ⟨1⟩ .classType "Companion"
  (t.attach ⟨1⟩ (.ofClass outer)).attach ⟨7⟩ (.ofClass inner)

theorem built_propertied (outer inner : ClassMetadata) : (propertied outer inner).Built := by
  iterate 2 apply Built.attach
  iterate 8 apply Built.add
  exact .empty

theorem acyclic_propertied (outer inner : ClassMetadata) :
    (propertied outer inner).toHost.Acyclic :=
  acyclic_of_isAscending rfl

end DeclTree

/-- The metadata of the class with the property. -/
def ClassMetadata.propertied : ClassMetadata where
  strings := .ofList ["p/C", "v", "kotlin/Int", "getV", "()I", "setV", "(I)V", "getV$annotations",
    "()V", "Companion"]
  descriptor :=
    { qualifiedName := ⟨0⟩, kind := .regular, companionName := some ⟨9⟩
      properties := [
        { name := ⟨1⟩, returnType := .named ⟨2⟩
          members := { getter := some ⟨⟨3⟩, ⟨4⟩⟩, setter := some ⟨⟨5⟩, ⟨6⟩⟩
                       holder := some ⟨⟨7⟩, ⟨8⟩⟩ } }] }

/-- The metadata of the companion. -/
def ClassMetadata.companion : ClassMetadata where
  strings := .ofList ["p/C.Companion"]
  descriptor := { qualifiedName := ⟨0⟩, kind := .companion }

/-- The resolver for the class with the property. -/
def Resolver.ofPropertied : Resolver :=
  ⟨(DeclTree.propertied .propertied .companion).toHost, {}⟩

deriving instance DecidableEq for Lookup, Cache

/-- The results of two runs can be compared. -/
instance decidableEqResult {ε σ α : Type} [DecidableEq ε] [DecidableEq σ] [DecidableEq α] :
    DecidableEq (EStateM.Result ε σ α)
  | .ok a s, .ok a' s' => decidable_of_iff (a = a' ∧ s = s') (by simp)
  | .error e s, .error e' s' => decidable_of_iff (e = e' ∧ s = s') (by simp)
  | .ok _ _, .error _ _ => isFalse (by simp)
  | .error _ _, .ok _ _ => isFalse (by simp)

/-- What is found out about the class when the getter is resolved. -/
def Cache.propertied : Cache where
  elements := #[
    .type
      { host := ⟨1⟩, qualifiedName := "p.C", packageName := "p", kind := .regular
        modality := .final, visibility := .everyone, flags := ⟨0⟩
        companionName := some "Companion", manglingSuffix := "main", properties := [⟨1⟩] },
    .property
      { owner := ⟨0⟩, name := "v", field := some ⟨2⟩, getter := some ⟨3⟩, setter := some ⟨4⟩
        holder := some ⟨6⟩, modality := .final, visibility := .everyone, flags := ⟨0⟩
        isExtension := false }]
  byDecl := ⟨[(⟨6⟩, ⟨1⟩), (⟨4⟩, ⟨1⟩), (⟨3⟩, ⟨1⟩), (⟨2⟩, ⟨1⟩), (⟨1⟩, ⟨0⟩)]⟩
  carriers := ⟨[(⟨3⟩, some ⟨1⟩), (⟨1⟩, some ⟨1⟩)]⟩

namespace Resolver

theorem resolve_propertied : ofPropertied.resolve ⟨3⟩ {} = .ok (some ⟨1⟩) Cache.propertied := by
  decide +kernel

theorem runAll_propertied (ops : List Operation) :
    ofPropertied.runAll (.resolve ⟨3⟩ :: ops) = ops.foldl ofPropertied.run Cache.propertied := by
  simp only [runAll, List.foldl_cons, run, ResolveM.after, resolve_propertied]

/-- The getter has the recorded signature and form, and is the getter of no other property. -/
theorem realizes_propertied :
    let c := ofPropertied.runAll [.resolve ⟨3⟩]
    ∃ p, c.element? ⟨1⟩ = some (.property p) ∧
      ofPropertied.host.HasForm p.isExtension.toNat ⟨3⟩ .getter ∧
      ∀ id p' role, c.element? id = some (.property p') → p'.member? role = some ⟨3⟩ →
        id = ⟨1⟩ ∧ role = .getter := by
  intro c
  obtain ⟨hrealizes, hunique⟩ := realizes_runAll (DeclTree.built_propertied .propertied .companion)
    (DeclTree.acyclic_propertied .propertied .companion) {} [.resolve ⟨3⟩]
  have hc : c = Cache.propertied := runAll_propertied []
  obtain ⟨p, he, hgetter⟩ : ∃ p, c.element? ⟨1⟩ = some (.property p) ∧
      p.member? .getter = some ⟨3⟩ := by
    rw [hc]
    exact ⟨_, rfl, rfl⟩
  obtain ⟨o, owner, strings, descriptors, d, i, -, -, -, -, -, hproperty⟩ := hrealizes ⟨1⟩ p he
  exact ⟨p, he, hproperty.form rfl hgetter,
    fun id p' role he' hm => hunique _ _ _ _ _ _ _ he' he hm hgetter⟩

end Resolver

end Correspondence
