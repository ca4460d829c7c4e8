import Correspondence.Proofs.Bounds
import Correspondence.Proofs.Duplicates

/-!
# Closed metadata

Metadata is closed if its descriptors refer only to strings that are there and to type parameters that
are in scope. An index of closed metadata may fail for signatures that repeat, or that are not those of an
enum constructor, but not for the metadata.
-/

namespace Correspondence

theorem Except.exists_bind_ok {ε α β : Type} {x : Except ε α} {f : α → Except ε β} {a : α}
    (hx : x = .ok a) (hf : ∃ b, f a = .ok b) : ∃ b, x >>= f = .ok b := by
  rw [hx]
  exact hf

/-- What a descriptor refers to by number. -/
inductive Reference
  | string (id : StringId)
  | typeParameter (id : Nat)
deriving DecidableEq, Repr

/-- Whether what is referred to is there: a string in a table, or one of some type parameters. -/
def Reference.Holds (strings : StringTable) (ids : List Nat) : Reference → Prop
  | .string id => strings.Has id
  | .typeParameter id => id ∈ ids

/-- What a classifier refers to. -/
def Classifier.reference : Classifier → Reference
  | .named id => .string id
  | .typeParameter id => .typeParameter id

mutual
/-- All that a type refers to, its arguments included. -/
def TypeRef.references : TypeRef → List Reference
  | ⟨classifier, _, arguments⟩ => classifier.reference :: Projection.allReferences arguments
/-- All that arguments refer to. -/
def Projection.allReferences : List Projection → List Reference
  | [] => []
  | ⟨_, none⟩ :: rest => Projection.allReferences rest
  | ⟨_, some type⟩ :: rest => type.references ++ Projection.allReferences rest
end

/-- The strings of a recorded signature. -/
def MethodSignature.references (s : MethodSignature) : List Reference :=
  [.string s.name, .string s.desc]

/-- The strings of a recorded field. -/
def FieldSignature.references (s : FieldSignature) : List Reference :=
  .string s.desc :: s.name.toList.map .string

/-- The strings of the members of a property. -/
def PropertySignature.references (s : PropertySignature) : List Reference :=
  s.field.toList.flatMap FieldSignature.references ++
    (s.getter.toList ++ s.setter.toList ++ s.holder.toList).flatMap MethodSignature.references

/-- All that a value parameter refers to. -/
def ParameterDescriptor.references (p : ParameterDescriptor) : List Reference :=
  .string p.name :: (p.type.references ++ p.varargElement.toList.flatMap TypeRef.references)

/-- All that a type parameter refers to, its bounds included. -/
def TypeParameterDescriptor.references (p : TypeParameterDescriptor) : List Reference :=
  .string p.name :: p.upperBounds.flatMap TypeRef.references

/-- All that a constructor refers to. -/
def ConstructorDescriptor.references (c : ConstructorDescriptor) : List Reference :=
  c.valueParameters.flatMap ParameterDescriptor.references ++
    c.signature.toList.flatMap MethodSignature.references

/-- All that a property refers to. -/
def PropertyDescriptor.references (p : PropertyDescriptor) : List Reference :=
  .string p.name :: (p.returnType.references ++ p.receiver.toList.flatMap TypeRef.references ++
    p.members.references)

namespace FunctionDescriptor

/-- All that a function refers to. -/
def references (f : FunctionDescriptor) : List Reference :=
  .string f.name :: (f.typeParameters.flatMap TypeParameterDescriptor.references ++
    f.receiver.toList.flatMap TypeRef.references ++
    f.valueParameters.flatMap ParameterDescriptor.references ++ f.returnType.references ++
    f.signature.toList.flatMap MethodSignature.references)

/-- The numbers of the type parameters that a function declares. -/
def declared (f : FunctionDescriptor) : List Nat :=
  f.typeParameters.map TypeParameterDescriptor.id

/-- What a function refers to without declaring it. -/
def freeReferences (f : FunctionDescriptor) : List Reference :=
  f.references.filter (· ∉ f.declared.map .typeParameter)

end FunctionDescriptor

/-- All that a class refers to. -/
def ClassDescriptor.references (c : ClassDescriptor) : List Reference :=
  .string c.qualifiedName :: (c.typeParameters.flatMap TypeParameterDescriptor.references ++
    c.companionName.toList.map .string ++ c.moduleName.toList.map .string ++
    c.constructors.flatMap ConstructorDescriptor.references ++
    c.functions.flatMap FunctionDescriptor.references ++
    c.properties.flatMap PropertyDescriptor.references ++ c.enumEntries.map .string)

/-- What a class refers to without a function of it that declares it. -/
def ClassDescriptor.scopedReferences (c : ClassDescriptor) : List Reference :=
  .string c.qualifiedName :: (c.typeParameters.flatMap TypeParameterDescriptor.references ++
    c.companionName.toList.map .string ++ c.moduleName.toList.map .string ++
    c.constructors.flatMap ConstructorDescriptor.references ++
    c.functions.flatMap FunctionDescriptor.freeReferences ++
    c.properties.flatMap PropertyDescriptor.references ++ c.enumEntries.map .string)

/-- The numbers of the type parameters that a class declares. -/
def ClassDescriptor.declared (c : ClassDescriptor) : List Nat :=
  c.typeParameters.map TypeParameterDescriptor.id

/-- All that a file refers to. -/
def PackageDescriptor.references (p : PackageDescriptor) : List Reference :=
  p.moduleName.toList.map .string ++ p.functions.flatMap FunctionDescriptor.references ++
    p.properties.flatMap PropertyDescriptor.references

/-- What a file refers to without a function of it that declares it. -/
def PackageDescriptor.scopedReferences (p : PackageDescriptor) : List Reference :=
  p.moduleName.toList.map .string ++ p.functions.flatMap FunctionDescriptor.freeReferences ++
    p.properties.flatMap PropertyDescriptor.references

/-- Whether all strings of a class are there, each type parameter that it refers to is declared by the
class, or by the function that refers to it, and no two declarations have the same number. -/
structure ClassMetadata.IsClosed (m : ClassMetadata) : Prop where
  strings (id : StringId) : .string id ∈ m.descriptor.references → m.strings.Has id
  functions {f : FunctionDescriptor} (hf : f ∈ m.descriptor.functions) (id : Nat) :
    .typeParameter id ∈ f.references → id ∈ f.declared ∨ id ∈ m.descriptor.declared
  constructors {c : ConstructorDescriptor} (hc : c ∈ m.descriptor.constructors) (id : Nat) :
    .typeParameter id ∈ c.references → id ∈ m.descriptor.declared
  properties {p : PropertyDescriptor} (hp : p ∈ m.descriptor.properties) (id : Nat) :
    .typeParameter id ∈ p.references → id ∈ m.descriptor.declared
  bounds {p : TypeParameterDescriptor} (hp : p ∈ m.descriptor.typeParameters) (id : Nat) :
    .typeParameter id ∈ p.references → id ∈ m.descriptor.declared
  nodup : (m.descriptor.declared ++ m.descriptor.functions.flatMap FunctionDescriptor.declared).Nodup

/-- Whether all strings of a file are there, each type parameter is referred to only in the function that
declares it, and no two declarations have the same number. -/
structure PackageMetadata.IsClosed (m : PackageMetadata) : Prop where
  strings (id : StringId) : .string id ∈ m.descriptor.references → m.strings.Has id
  functions {f : FunctionDescriptor} (hf : f ∈ m.descriptor.functions) (id : Nat) :
    .typeParameter id ∈ f.references → id ∈ f.declared
  properties {p : PropertyDescriptor} (hp : p ∈ m.descriptor.properties) (id : Nat) :
    .typeParameter id ∉ p.references
  nodup : (m.descriptor.functions.flatMap FunctionDescriptor.declared).Nodup

theorem FunctionDescriptor.mem_freeReferences {f : FunctionDescriptor} {r : Reference} :
    r ∈ f.freeReferences ↔ r ∈ f.references ∧ ∀ id ∈ f.declared, r ≠ .typeParameter id := by
  simp [freeReferences, eq_comm]

theorem ClassMetadata.isClosed_of_holds {m : ClassMetadata}
    (hholds : ∀ r ∈ m.descriptor.scopedReferences, r.Holds m.strings m.descriptor.declared)
    (hnodup : (m.descriptor.declared ++
      m.descriptor.functions.flatMap FunctionDescriptor.declared).Nodup) : m.IsClosed where
  strings id hid := by
    apply hholds (.string id)
    simp only [ClassDescriptor.references, ClassDescriptor.scopedReferences, List.mem_cons,
      List.mem_append, List.mem_flatMap, FunctionDescriptor.mem_freeReferences] at hid ⊢
    grind
  functions {f} hf id hid := by
    by_cases hdeclared : id ∈ f.declared
    · exact .inl hdeclared
    · right
      apply hholds (.typeParameter id)
      simp only [ClassDescriptor.scopedReferences, List.mem_cons, List.mem_append, List.mem_flatMap,
        FunctionDescriptor.mem_freeReferences]
      grind
  constructors {c} hc id hid := by
    apply hholds (.typeParameter id)
    simp only [ClassDescriptor.scopedReferences, List.mem_cons, List.mem_append, List.mem_flatMap]
    grind
  properties {p} hp id hid := by
    apply hholds (.typeParameter id)
    simp only [ClassDescriptor.scopedReferences, List.mem_cons, List.mem_append, List.mem_flatMap]
    grind
  bounds {p} hp id hid := by
    apply hholds (.typeParameter id)
    simp only [ClassDescriptor.scopedReferences, List.mem_cons, List.mem_append, List.mem_flatMap]
    grind
  nodup := hnodup

theorem PackageMetadata.isClosed_of_holds {m : PackageMetadata}
    (hholds : ∀ r ∈ m.descriptor.scopedReferences, r.Holds m.strings [])
    (hnodup : (m.descriptor.functions.flatMap FunctionDescriptor.declared).Nodup) : m.IsClosed where
  strings id hid := by
    apply hholds (.string id)
    simp only [PackageDescriptor.references, PackageDescriptor.scopedReferences, List.mem_append,
      List.mem_flatMap, FunctionDescriptor.mem_freeReferences] at hid ⊢
    grind
  functions {f} hf id hid := by
    by_contra hdeclared
    have hempty : id ∈ [] := by
      apply hholds (.typeParameter id)
      simp only [PackageDescriptor.scopedReferences, List.mem_append, List.mem_flatMap,
        FunctionDescriptor.mem_freeReferences]
      grind
    cases hempty
  properties {p} hp id hid := by
    have hempty : id ∈ [] := by
      apply hholds (.typeParameter id)
      simp only [PackageDescriptor.scopedReferences, List.mem_append, List.mem_flatMap]
      grind
    cases hempty
  nodup := hnodup

/-! ## Types in a closed scope -/

namespace Scope

/-- The numbers of the type parameters in scope. -/
def ids (scope : Scope) : List Nat :=
  scope.typeParameters.map TypeParameterDescriptor.id

/-- Whether something that is referred to is in scope. -/
def Covers (scope : Scope) (references : List Reference) : Prop :=
  ∀ r ∈ references, r.Holds scope.strings scope.ids

/-- Whether the bounds of the type parameters in scope are in scope too. -/
def IsClosed (scope : Scope) : Prop :=
  ∀ p ∈ scope.typeParameters, ∀ bound ∈ p.upperBounds, scope.Covers bound.references

variable {scope : Scope} {type last : TypeRef} {position lastPosition : TypePosition}
  {arrays bounds : Nat}

theorem covers_cons {r : Reference} {references : List Reference} :
    scope.Covers (r :: references) ↔ r.Holds scope.strings scope.ids ∧ scope.Covers references :=
  List.forall_mem_cons

theorem covers_append {references references' : List Reference} :
    scope.Covers (references ++ references') ↔ scope.Covers references ∧ scope.Covers references' :=
  List.forall_mem_append

theorem covers_flatMap {α : Type} {l : List α} {f : α → List Reference} :
    scope.Covers (l.flatMap f) ↔ ∀ x ∈ l, scope.Covers (f x) := by
  simp only [Covers, List.mem_flatMap]
  grind

theorem Covers.of_subset {references references' : List Reference} (h : scope.Covers references)
    (hsub : references' ⊆ references) : scope.Covers references' :=
  fun r hr => h r (hsub hr)

theorem references_subset_of_elementType? {element : TypeRef} (h : elementType? type = some element) :
    element.references ⊆ type.references := by
  obtain ⟨classifier, nullable, arguments⟩ := type
  cases arguments with
  | nil => cases h
  | cons p rest =>
    obtain ⟨variance, type?⟩ := p
    obtain rfl : type? = some element := h
    rw [TypeRef.references, Projection.allReferences]
    intro r hr
    exact List.mem_cons_of_mem _ (List.mem_append_left _ hr)

/-- What a type leads to is in scope as the type is. -/
theorem Leads.covers (hscope : scope.IsClosed)
    (h : scope.Leads arrays bounds type position last lastPosition)
    (htype : scope.Covers type.references) : scope.Covers last.references := by
  induction h with
  | here => exact htype
  | element hid hname helement h ih =>
    exact ih (htype.of_subset (references_subset_of_elementType? helement))
  | bound hid hparam hbound h ih =>
    exact ih (hscope _ (List.mem_of_find?_eq_some hparam) _ (List.mem_of_mem_head? hbound))

theorem Covers.not_fails {e : MetadataError} (h : scope.Covers type.references) :
    ¬ scope.Fails type e := by
  have hclassifier : type.classifier.reference.Holds scope.strings scope.ids := by
    apply h
    obtain ⟨classifier, nullable, arguments⟩ := type
    rw [TypeRef.references]
    exact List.mem_cons_self
  intro hfails
  cases hfails with
  | @typeParameter id hid hparam =>
    rw [hid] at hclassifier
    obtain ⟨p, hp, rfl⟩ := List.mem_map.mp hclassifier
    exact absurd (List.find?_eq_none.mp hparam p hp) (by simp)
  | string hid hname =>
    rw [hid] at hclassifier
    obtain ⟨text, htext⟩ := hclassifier
    cases hname.symm.trans htext

/-- A type that is in scope has a descriptor. -/
theorem Covers.exists_encode (h : scope.Covers type.references) (hscope : scope.IsClosed)
    (position : TypePosition) : ∃ text, scope.encode type position = .ok text := by
  obtain ⟨arrays, bounds, last, lastPosition, hle, hleads, hlast⟩ :=
    scope.exists_leads maxBounds type position
  obtain ⟨left, hleft⟩ := Nat.exists_eq_add_of_le hle
  rw [encode, hleft, encodeWithin_of_leads hleads]
  rcases hlast with ⟨leaf, hends⟩ | ⟨e, hfails⟩ | ⟨rfl, hbounded⟩
  · rw [encodeWithin_of_ends hends]
    exact ⟨_, rfl⟩
  · exact absurd hfails (hleads.covers hscope h).not_fails
  · obtain rfl : left = 0 := by omega
    rw [encodeWithin_zero_of_isBounded hbounded]
    exact ⟨_, rfl⟩

/-! ## Signatures in a closed scope -/

theorem exists_recorded {signature : MethodSignature} (h : scope.Covers signature.references) :
    ∃ text, scope.recorded signature = .ok text := by
  obtain ⟨⟨name, hname⟩, hrest⟩ := covers_cons.mp h
  obtain ⟨⟨desc, hdesc⟩, -⟩ := covers_cons.mp hrest
  exact Except.exists_bind_ok hname (Except.exists_bind_ok hdesc ⟨_, rfl⟩)

theorem exists_recorded? {signature? : Option MethodSignature}
    (h : scope.Covers (signature?.toList.flatMap MethodSignature.references)) :
    ∃ text?, scope.recorded? signature? = .ok text? := by
  cases signature? with
  | none => exact ⟨none, rfl⟩
  | some signature =>
    obtain ⟨text, htext⟩ := exists_recorded (covers_flatMap.mp h signature List.mem_cons_self)
    exact ⟨some text, by rw [recorded?, htext]; rfl⟩

theorem exists_encodeParameters {params : List ParameterDescriptor} (hscope : scope.IsClosed)
    (h : scope.Covers (params.flatMap ParameterDescriptor.references)) :
    ∃ text, scope.encodeParameters params = .ok text := by
  have htypes : ∀ p ∈ params, ∃ text, scope.encode p.type .value = .ok text := by
    intro p hp
    obtain ⟨-, hrest⟩ := covers_cons.mp (covers_flatMap.mp h p hp)
    exact (covers_append.mp hrest).1.exists_encode hscope .value
  obtain ⟨texts, htexts⟩ := Except.exists_mapM_ok htypes
  exact Except.exists_bind_ok htexts ⟨_, rfl⟩

theorem mem_ids_enter {params : List TypeParameterDescriptor} {id : Nat} :
    id ∈ (scope.enter params).ids ↔ id ∈ params.map TypeParameterDescriptor.id ∨ id ∈ scope.ids := by
  simp [enter, ids]

theorem Covers.enter {references : List Reference} (h : scope.Covers references)
    (params : List TypeParameterDescriptor) : (scope.enter params).Covers references := by
  intro r hr
  cases r with
  | string id => exact h _ hr
  | typeParameter id => exact mem_ids_enter.mpr (.inr (h _ hr))

/-- Type parameters with bounds that are in scope among them keep a scope closed. -/
theorem IsClosed.enter {params : List TypeParameterDescriptor} (hscope : scope.IsClosed)
    (h : (scope.enter params).Covers (params.flatMap TypeParameterDescriptor.references)) :
    (scope.enter params).IsClosed := by
  intro p hp bound hbound
  rcases List.mem_append.mp hp with hp | hp
  · obtain ⟨-, hbounds⟩ := covers_cons.mp (covers_flatMap.mp h p (List.mem_reverse.mp hp))
    exact covers_flatMap.mp hbounds bound hbound
  · exact (hscope p hp bound hbound).enter params

theorem exists_functionSignature {f : FunctionDescriptor} (hscope : scope.IsClosed)
    (h : (scope.enter f.typeParameters).Covers f.references) :
    ∃ text, scope.functionSignature f = .ok text := by
  simp only [FunctionDescriptor.references, covers_cons, covers_append] at h
  obtain ⟨⟨name, hname⟩, ⟨⟨⟨htypeParameters, hreceiver⟩, hparams⟩, hresult⟩, hsignature⟩ := h
  unfold functionSignature
  cases heq : f.signature with
  | some signature =>
    rw [heq] at hsignature
    obtain ⟨text, htext⟩ := exists_recorded (covers_flatMap.mp hsignature signature List.mem_cons_self)
    exact ⟨text, htext⟩
  | none =>
    have hinner : (scope.enter f.typeParameters).IsClosed := hscope.enter htypeParameters
    obtain ⟨params, hparams⟩ := exists_encodeParameters hinner hparams
    obtain ⟨result, hresult⟩ := hresult.exists_encode hinner .result
    -- Whatever the receiver adds to the signature, the rest of it is there.
    have hrest (receiver : String) : ∃ text, (do
        let params ← (scope.enter f.typeParameters).encodeParameters f.valueParameters
        if f.isSuspending then
          return name ++ "(" ++ receiver ++ params ++ continuationDescriptor ++ ")" ++ objectDescriptor
        else
          let result ← (scope.enter f.typeParameters).encode f.returnType .result
          return name ++ "(" ++ receiver ++ params ++ ")" ++ result : Except MetadataError String) =
        .ok text := by
      apply Except.exists_bind_ok hparams
      split
      · exact ⟨_, rfl⟩
      · exact Except.exists_bind_ok hresult ⟨_, rfl⟩
    apply Except.exists_bind_ok hname
    cases htype : f.receiver with
    | none => exact hrest ""
    | some type =>
      rw [htype] at hreceiver
      have hcovers := covers_flatMap.mp hreceiver type List.mem_cons_self
      obtain ⟨receiver, hreceiver⟩ := hcovers.exists_encode hinner .value
      exact Except.exists_bind_ok hreceiver (hrest receiver)

theorem exists_accessorSignatures {p : PropertyDescriptor} (h : scope.Covers p.references) :
    ∃ signatures, scope.accessorSignatures p = .ok signatures := by
  simp only [PropertyDescriptor.references, PropertySignature.references, covers_cons, covers_append,
    List.flatMap_append] at h
  obtain ⟨-, -, -, ⟨hgetter, hsetter⟩, hholder⟩ := h
  obtain ⟨getter, hgetter⟩ := exists_recorded? hgetter
  obtain ⟨setter, hsetter⟩ := exists_recorded? hsetter
  obtain ⟨holder, hholder⟩ := exists_recorded? hholder
  exact Except.exists_bind_ok hgetter (Except.exists_bind_ok hsetter
    (Except.exists_bind_ok hholder ⟨_, rfl⟩))

end Scope

/-! ## Indexes of closed metadata -/

/-- Whether a step that may fail does not fail for the metadata. -/
def MetadataSafe {α : Type} (x : Except ResolveError α) : Prop :=
  ∀ e, x ≠ .error (.metadata e)

namespace MetadataSafe

variable {α β : Type} {x : Except ResolveError α}

theorem of_ok (h : ∃ a, x = .ok a) : MetadataSafe x := by
  obtain ⟨a, rfl⟩ := h
  intro e he
  cases he

theorem mapError {y : Except MetadataError α} (h : ∃ a, y = .ok a) :
    MetadataSafe (y.mapError .metadata) := by
  obtain ⟨a, rfl⟩ := h
  exact of_ok ⟨a, rfl⟩

theorem bind {f : α → Except ResolveError β} (hx : MetadataSafe x) (hf : ∀ a, MetadataSafe (f a)) :
    MetadataSafe (x >>= f) := by
  intro e he
  rcases Except.bind_eq_error_iff.mp he with he | ⟨a, -, he⟩
  · exact hx e he
  · exact hf a e he

theorem foldlM {γ : Type} {f : β → γ → Except ResolveError β} {l : List γ} {b : β}
    (h : ∀ c ∈ l, ∀ b, MetadataSafe (f b c)) : MetadataSafe (l.foldlM f b) := by
  induction l generalizing b with
  | nil => exact of_ok ⟨b, rfl⟩
  | cons c l ih =>
    obtain ⟨hc, hl⟩ := List.forall_mem_cons.mp h
    rw [List.foldlM_cons]
    exact (hc b).bind fun b => ih hl

end MetadataSafe

namespace DescriptorIndex

variable {scope : Scope}

/-- Entering a value may fail for another one with its key. -/
theorem record_metadataSafe {β : Type} {owner key : String} {table : Lookup String β} {value : β}
    {describe : β → String} : MetadataSafe (record owner table key value describe) := by
  intro e he
  unfold record at he
  split at he <;> cases he

theorem addFunction_metadataSafe {f : FunctionDescriptor} (hscope : scope.IsClosed)
    (h : (scope.enter f.typeParameters).Covers f.references) (index : DescriptorIndex) :
    MetadataSafe (addFunction scope index f) := by
  have hcovers := h
  simp only [FunctionDescriptor.references, Scope.covers_cons, Scope.covers_append,
    Scope.covers_flatMap] at hcovers
  obtain ⟨hname, ⟨⟨⟨htypeParameters, -⟩, hparams⟩, -⟩, -⟩ := hcovers
  have hnames : ∀ p ∈ f.valueParameters, scope.strings.Has p.name :=
    fun p hp => (Scope.covers_cons.mp (hparams p hp)).1
  have htypeNames : ∀ p ∈ f.typeParameters, scope.strings.Has p.name :=
    fun p hp => (Scope.covers_cons.mp (htypeParameters p hp)).1
  apply (MetadataSafe.mapError (Scope.exists_functionSignature hscope h)).bind
  intro signature
  apply (MetadataSafe.mapError hname).bind
  intro name
  apply (MetadataSafe.of_ok (exists_parameters hnames)).bind
  intro parameters
  apply (MetadataSafe.of_ok (exists_typeParameterNames htypeNames)).bind
  intro typeParameters
  apply record_metadataSafe.bind
  intro positions
  exact .of_ok ⟨_, rfl⟩

theorem addAccessor_metadataSafe (position : Nat) (index : DescriptorIndex)
    (x : Option String × AccessorRole) : MetadataSafe (addAccessor position index x) := by
  obtain ⟨signature?, role⟩ := x
  cases signature? with
  | none => exact .of_ok ⟨index, rfl⟩
  | some signature => exact record_metadataSafe.bind fun positions => .of_ok ⟨_, rfl⟩

theorem addProperty_metadataSafe {p : PropertyDescriptor} (h : scope.Covers p.references)
    (index : DescriptorIndex) : MetadataSafe (addProperty scope index p) := by
  have hcovers := h
  simp only [PropertyDescriptor.references, PropertySignature.references, Scope.covers_cons,
    Scope.covers_append] at hcovers
  obtain ⟨hname, -, hfield, -⟩ := hcovers
  have hfieldName : ∀ id ∈ p.members.field.bind FieldSignature.name, scope.strings.Has id := by
    intro id hid
    obtain ⟨field, hmem, hid⟩ := Option.bind_eq_some_iff.mp hid
    apply hfield (.string id)
    simp [hmem, FieldSignature.references, hid]
  apply (MetadataSafe.mapError (Scope.exists_accessorSignatures h)).bind
  intro signatures
  apply (MetadataSafe.of_ok (StringTable.exists_read? hfieldName)).bind
  intro fieldName
  apply (MetadataSafe.mapError hname).bind
  intro name
  exact MetadataSafe.foldlM fun x _ index => addAccessor_metadataSafe _ index x

/-- The signature of an enum constructor may lack its start, but that is no fault of the metadata. -/
theorem constructorSignature_metadataSafe {c : ConstructorDescriptor} (hscope : scope.IsClosed)
    (h : scope.Covers c.references) (owner : String) (isEnum : Bool) :
    MetadataSafe (scope.constructorSignature owner c isEnum) := by
  obtain ⟨hparams, hsignature⟩ := Scope.covers_append.mp h
  have hrest (signature : String) : MetadataSafe
      (if isEnum then stripEnumConstructorStart owner signature else .ok signature) := by
    intro e he
    unfold stripEnumConstructorStart at he
    split at he
    · split at he <;> cases he
    · cases he
  unfold Scope.constructorSignature
  cases heq : c.signature with
  | some signature =>
    rw [heq] at hsignature
    have hcovers := Scope.covers_flatMap.mp hsignature signature List.mem_cons_self
    exact (MetadataSafe.mapError (Scope.exists_recorded hcovers)).bind hrest
  | none =>
    have hencode := Scope.exists_encodeParameters hscope hparams
    exact (MetadataSafe.mapError hencode).bind fun params => hrest _

theorem addConstructor_metadataSafe {c : ConstructorDescriptor} (hscope : scope.IsClosed)
    (h : scope.Covers c.references) (isEnum : Bool) (index : DescriptorIndex) :
    MetadataSafe (addConstructor scope isEnum index c) := by
  obtain ⟨hparams, -⟩ := Scope.covers_append.mp h
  have hnames : ∀ p ∈ c.valueParameters, scope.strings.Has p.name :=
    fun p hp => (Scope.covers_cons.mp (Scope.covers_flatMap.mp hparams p hp)).1
  apply (constructorSignature_metadataSafe hscope h index.owner isEnum).bind
  intro signature
  apply (MetadataSafe.of_ok (exists_parameters hnames)).bind
  intro parameters
  apply record_metadataSafe.bind
  intro positions
  exact .of_ok ⟨_, rfl⟩

theorem addEnumEntry_metadataSafe {strings : StringTable} {entry : StringId} (h : strings.Has entry)
    (index : DescriptorIndex) : MetadataSafe (addEnumEntry strings index entry) := by
  apply (MetadataSafe.mapError h).bind
  intro name
  apply record_metadataSafe.bind
  intro positions
  exact .of_ok ⟨_, rfl⟩

end DescriptorIndex

theorem Scope.covers_of_forall {scope : Scope} {references : List Reference}
    (hstrings : ∀ id, .string id ∈ references → scope.strings.Has id)
    (hids : ∀ id, .typeParameter id ∈ references → id ∈ scope.ids) : scope.Covers references := by
  intro r hr
  cases r with
  | string id => exact hstrings id hr
  | typeParameter id => exact hids id hr

theorem Scope.isClosed_of_empty (strings : StringTable) : Scope.IsClosed ⟨strings, []⟩ := by
  intro p hp
  cases hp

namespace ClassMetadata

variable {m : ClassMetadata}

/-- The scope inside of a class. -/
def scope (m : ClassMetadata) : Scope :=
  Scope.enter ⟨m.strings, []⟩ m.descriptor.typeParameters

theorem mem_ids_scope {id : Nat} : id ∈ m.scope.ids ↔ id ∈ m.descriptor.declared := by
  rw [scope, Scope.mem_ids_enter]
  simp [Scope.ids, ClassDescriptor.declared]

namespace IsClosed

theorem covers_function (h : m.IsClosed) {f : FunctionDescriptor} (hf : f ∈ m.descriptor.functions) :
    (m.scope.enter f.typeParameters).Covers f.references := by
  apply Scope.covers_of_forall
  · intro id hid
    apply h.strings
    simp only [ClassDescriptor.references, List.mem_cons, List.mem_append, List.mem_flatMap]
    grind
  · intro id hid
    exact Scope.mem_ids_enter.mpr ((h.functions hf id hid).imp_right mem_ids_scope.mpr)

theorem covers_property (h : m.IsClosed) {p : PropertyDescriptor} (hp : p ∈ m.descriptor.properties) :
    m.scope.Covers p.references := by
  apply Scope.covers_of_forall
  · intro id hid
    apply h.strings
    simp only [ClassDescriptor.references, List.mem_cons, List.mem_append, List.mem_flatMap]
    grind
  · intro id hid
    exact mem_ids_scope.mpr (h.properties hp id hid)

theorem covers_constructor (h : m.IsClosed) {c : ConstructorDescriptor}
    (hc : c ∈ m.descriptor.constructors) : m.scope.Covers c.references := by
  apply Scope.covers_of_forall
  · intro id hid
    apply h.strings
    simp only [ClassDescriptor.references, List.mem_cons, List.mem_append, List.mem_flatMap]
    grind
  · intro id hid
    exact mem_ids_scope.mpr (h.constructors hc id hid)

theorem covers_typeParameters (h : m.IsClosed) :
    m.scope.Covers (m.descriptor.typeParameters.flatMap TypeParameterDescriptor.references) := by
  apply Scope.covers_of_forall
  · intro id hid
    apply h.strings
    simp only [ClassDescriptor.references, List.mem_cons, List.mem_append]
    grind
  · intro id hid
    obtain ⟨p, hp, hid⟩ := List.mem_flatMap.mp hid
    exact mem_ids_scope.mpr (h.bounds hp id hid)

/-- The index of a closed class does not fail for the metadata. -/
theorem metadataSafe (h : m.IsClosed) (owner : String) :
    MetadataSafe (DescriptorIndex.ofClass owner m) := by
  have hscope : m.scope.IsClosed := (Scope.isClosed_of_empty m.strings).enter h.covers_typeParameters
  have hnames : ∀ p ∈ m.descriptor.typeParameters, m.strings.Has p.name := fun p hp =>
    (Scope.covers_cons.mp (Scope.covers_flatMap.mp h.covers_typeParameters p hp)).1
  have hentries : ∀ id ∈ m.descriptor.enumEntries, m.strings.Has id := by
    intro id hid
    apply h.strings
    simp [ClassDescriptor.references, hid]
  refine MetadataSafe.bind (MetadataSafe.foldlM fun f hf =>
    DescriptorIndex.addFunction_metadataSafe hscope (h.covers_function hf)) fun index => ?_
  refine MetadataSafe.bind (MetadataSafe.foldlM fun p hp =>
    DescriptorIndex.addProperty_metadataSafe (h.covers_property hp)) fun index => ?_
  refine MetadataSafe.bind (MetadataSafe.foldlM fun c hc =>
    DescriptorIndex.addConstructor_metadataSafe hscope (h.covers_constructor hc) _) fun index => ?_
  refine MetadataSafe.bind (.of_ok (DescriptorIndex.exists_typeParameterNames hnames)) fun names => ?_
  exact MetadataSafe.foldlM fun entry hentry =>
    DescriptorIndex.addEnumEntry_metadataSafe (hentries entry hentry)

end IsClosed

end ClassMetadata

namespace PackageMetadata.IsClosed

variable {m : PackageMetadata}

/-- The index of a closed file does not fail for the metadata. -/
theorem metadataSafe (h : m.IsClosed) (owner : String) :
    MetadataSafe (DescriptorIndex.ofPackage owner m) := by
  have hfunctions : ∀ f ∈ m.descriptor.functions,
      (Scope.enter ⟨m.strings, []⟩ f.typeParameters).Covers f.references := by
    intro f hf
    apply Scope.covers_of_forall
    · intro id hid
      apply h.strings
      simp only [PackageDescriptor.references, List.mem_append, List.mem_flatMap]
      grind
    · intro id hid
      exact Scope.mem_ids_enter.mpr (.inl (h.functions hf id hid))
  have hproperties : ∀ p ∈ m.descriptor.properties, Scope.Covers ⟨m.strings, []⟩ p.references := by
    intro p hp
    apply Scope.covers_of_forall
    · intro id hid
      apply h.strings
      simp only [PackageDescriptor.references, List.mem_append, List.mem_flatMap]
      grind
    · intro id hid
      exact absurd hid (h.properties hp id)
  refine MetadataSafe.bind (MetadataSafe.foldlM fun f hf =>
    DescriptorIndex.addFunction_metadataSafe (Scope.isClosed_of_empty m.strings) (hfunctions f hf))
    fun index => ?_
  exact MetadataSafe.foldlM fun p hp => DescriptorIndex.addProperty_metadataSafe (hproperties p hp)

end PackageMetadata.IsClosed

end Correspondence
