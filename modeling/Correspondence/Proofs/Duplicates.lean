import Correspondence.Proofs.Indexing
import Mathlib.Data.List.Duplicate

/-!
# Duplicates

An index is built exactly if no two descriptors of one kind have the same signature or name. It finds
each of them at its place in the metadata then, and nothing else. Otherwise the error names a signature
or a name that occurs twice.
-/

namespace Correspondence

theorem Except.exists_mapM_ok {ε α β : Type} {f : α → Except ε β} {l : List α}
    (h : ∀ x ∈ l, ∃ y, f x = .ok y) : ∃ ys, l.mapM f = .ok ys := by
  induction l with
  | nil => exact ⟨[], rfl⟩
  | cons x l ih =>
    obtain ⟨hx, hl⟩ := List.forall_mem_cons.mp h
    obtain ⟨y, hy⟩ := hx
    obtain ⟨ys, hys⟩ := ih hl
    exact ⟨y :: ys, by rw [List.mapM_cons, hy, hys]; rfl⟩

namespace AccessorSignatures

/-- The recorded signature of the method with a role. -/
def accessor (s : AccessorSignatures) : AccessorRole → Option String
  | .field => none
  | .getter => s.getter
  | .setter => s.setter
  | .holder => s.holder

/-- The roles of the methods, with the signatures that are recorded for them. -/
def byRole (s : AccessorSignatures) : List (Option String × AccessorRole) :=
  [(s.getter, .getter), (s.setter, .setter), (s.holder, .holder)]

/-- The recorded signatures. -/
def toList (s : AccessorSignatures) : List String :=
  s.byRole.filterMap Prod.fst

theorem mem_byRole {s : AccessorSignatures} {signature : String} {role : AccessorRole} :
    (some signature, role) ∈ s.byRole ↔ s.accessor role = some signature := by
  cases role <;> simp [byRole, accessor, eq_comm]

theorem mem_toList {s : AccessorSignatures} {signature : String} :
    signature ∈ s.toList ↔ ∃ role, s.accessor role = some signature := by
  simp only [toList, List.mem_filterMap, Prod.exists]
  constructor
  · rintro ⟨_, role, h, rfl⟩
    exact ⟨role, mem_byRole.mp h⟩
  · rintro ⟨role, h⟩
    exact ⟨_, role, mem_byRole.mpr h, rfl⟩

end AccessorSignatures

/-- What the descriptors of a class or file are found by, in order. -/
structure IndexKeys where
  functions : List String := []
  properties : List AccessorSignatures := []
  constructors : List String := []
  enumEntries : List String := []

namespace IndexKeys

/-- The recorded signatures of all methods of properties. -/
def accessors (k : IndexKeys) : List String :=
  k.properties.flatMap AccessorSignatures.toList

/-- Whether descriptors of one kind are told apart by their keys. -/
def Distinct (k : IndexKeys) : Prop :=
  k.functions.Nodup ∧ k.accessors.Nodup ∧ k.constructors.Nodup ∧ k.enumEntries.Nodup

/-- Whether a key occurs twice among those of one kind. -/
def Repeats (k : IndexKeys) (key : String) : Prop :=
  List.Duplicate key k.functions ∨ List.Duplicate key k.accessors ∨
    List.Duplicate key k.constructors ∨ List.Duplicate key k.enumEntries

theorem Repeats.not_distinct {k : IndexKeys} {key : String} (h : k.Repeats key) : ¬ k.Distinct := by
  rintro ⟨hfunctions, haccessors, hconstructors, hentries⟩
  rcases h with h | h | h | h
  · exact h.not_nodup hfunctions
  · exact h.not_nodup haccessors
  · exact h.not_nodup hconstructors
  · exact h.not_nodup hentries

end IndexKeys

namespace DescriptorIndex

/-- Whether an index finds descriptors by exactly the given keys, each at its place. -/
structure Finds (index : DescriptorIndex) (k : IndexKeys) : Prop where
  functionWith? (s : String) (i : Nat) : index.functionWith? s = some i ↔ k.functions[i]? = some s
  constructorWith? (s : String) (i : Nat) :
    index.constructorWith? s = some i ↔ k.constructors[i]? = some s
  accessorWith? (s : String) (i : Nat) (role : AccessorRole) :
    index.accessorWith? s = some (i, role) ↔
      ∃ p, k.properties[i]? = some p ∧ p.accessor role = some s
  enumEntryNamed? (s : String) (i : Nat) :
    index.enumEntryNamed? s = some i ↔ k.enumEntries[i]? = some s
  reserves_method (s : String) : index.reserves .method s ↔ s ∈ k.functions ∨ s ∈ k.accessors
  reserves_constructor (s : String) : index.reserves .constructor s ↔ s ∈ k.constructors

/-- Whether building gives an index with a property, its keys being distinct, or the error that one of
them is repeated. -/
inductive Settles (owner : String) (distinct : Prop) (repeats : String → Prop)
    (P : DescriptorIndex → Prop) : Except ResolveError DescriptorIndex → Prop
  | built {index : DescriptorIndex} (hdistinct : distinct) (hindex : P index) :
      Settles owner distinct repeats P (.ok index)
  | refused {key first second : String} (hkey : repeats key) :
      Settles owner distinct repeats P (.error (.duplicateDescriptor owner key first second))

namespace Settles

variable {owner : String} {distinct distinct' : Prop} {repeats repeats' : String → Prop}
  {P Q : DescriptorIndex → Prop} {result : Except ResolveError DescriptorIndex}

theorem imp (h : Settles owner distinct repeats P result) (hdistinct : distinct → distinct')
    (hrepeats : ∀ key, repeats key → repeats' key) (hP : ∀ index, P index → Q index) :
    Settles owner distinct' repeats' Q result := by
  cases h with
  | built h hindex => exact .built (hdistinct h) (hP _ hindex)
  | refused h => exact .refused (hrepeats _ h)

theorem bind {f : DescriptorIndex → Except ResolveError DescriptorIndex}
    (h : Settles owner distinct repeats P result)
    (hf : ∀ index, P index → Settles owner distinct' repeats' Q (f index)) :
    Settles owner (distinct ∧ distinct') (fun key => repeats key ∨ repeats' key) Q (result >>= f) := by
  cases h with
  | built h hindex => exact (hf _ hindex).imp (And.intro h) (fun _ => .inr) fun _ => id
  | refused h => exact .refused (.inl h)

section Fold

variable {α κ : Type} {f : DescriptorIndex → α → Except ResolveError DescriptorIndex}
  {R : α → κ → Prop} {I : List κ → DescriptorIndex → Prop} {keys : List κ → List String}
  {l : List α} {ks : List κ} {index : DescriptorIndex}

theorem foldlM_append (hkeys : ∀ done more, (keys done).Sublist (keys (done ++ more)))
    (step : ∀ index x done k, I done index → (keys done).Nodup → R x k →
      Settles owner (keys (done ++ [k])).Nodup (List.Duplicate · (keys (done ++ [k])))
        (I (done ++ [k])) (f index x))
    (h : List.Forall₂ R l ks) (done : List κ) (hdone : I done index) (hnodup : (keys done).Nodup) :
    Settles owner (keys (done ++ ks)).Nodup (List.Duplicate · (keys (done ++ ks))) (I (done ++ ks))
      (l.foldlM f index) := by
  -- A key that is repeated among the first descriptors stays so, whatever follows.
  induction h generalizing done index with
  | nil =>
    rw [List.append_nil]
    exact .built hnodup hdone
  | @cons x k l ks hx _ ih =>
    have hstep := step index x done k hdone hnodup hx
    rw [List.foldlM_cons, List.append_cons]
    generalize f index x = next at hstep
    cases hstep with
    | built hnodup' hnext => exact ih _ hnext hnodup'
    | refused hkey => exact .refused (hkey.mono_sublist (hkeys _ _))

/-- Descriptors are added one after the other, as long as their keys are new. -/
theorem foldlM (hkeys : ∀ done more, (keys done).Sublist (keys (done ++ more)))
    (step : ∀ index x done k, I done index → (keys done).Nodup → R x k →
      Settles owner (keys (done ++ [k])).Nodup (List.Duplicate · (keys (done ++ [k])))
        (I (done ++ [k])) (f index x))
    (h : List.Forall₂ R l ks) (hindex : I [] index) (hnodup : (keys []).Nodup) :
    Settles owner (keys ks).Nodup (List.Duplicate · (keys ks)) (I ks) (l.foldlM f index) :=
  foldlM_append hkeys step h [] hindex hnodup

end Fold

/-- One more key is entered if it is new. -/
theorem record {β : Type} {table : Lookup String β} {keys : List String} {key : String} {value : β}
    {describe : β → String} {g : Lookup String β → DescriptorIndex}
    (hkeys : ∀ s, (∃ v, table.find? s = some v) ↔ s ∈ keys) (hnodup : keys.Nodup)
    (hP : ∀ table', record owner table key value describe = .ok table' → P (g table')) :
    Settles owner (keys ++ [key]).Nodup (List.Duplicate · (keys ++ [key])) P
      (record owner table key value describe >>= fun table' => .ok (g table')) := by
  cases hfind : table.find? key with
  | none =>
    have hnew : key ∉ keys := by
      rw [← hkeys, hfind]
      simp
    have hrecord : DescriptorIndex.record owner table key value describe =
        .ok (table.insert key value) := by
      rw [DescriptorIndex.record, hfind]
    rw [hrecord]
    exact .built (List.concat_eq_append ▸ hnodup.concat hnew) (hP _ hrecord)
  | some earlier =>
    have hmem : key ∈ keys := (hkeys key).mp ⟨earlier, hfind⟩
    have hrecord : DescriptorIndex.record owner table key value describe =
        .error (.duplicateDescriptor owner key (describe earlier) (describe value)) := by
      rw [DescriptorIndex.record, hfind]
    rw [hrecord]
    refine .refused (List.duplicate_iff_sublist.mpr ?_)
    exact (List.singleton_sublist.mpr hmem).append (.refl [key])

end Settles

/-- Whether the tables of an index hold the given keys, with as many descriptors. -/
structure Tracks (owner : String) (k : IndexKeys) (index : DescriptorIndex) : Prop where
  owner : index.owner = owner
  functions : index.functions.length = k.functions.length
  properties : index.properties.length = k.properties.length
  constructors : index.constructors.length = k.constructors.length
  enumEntries : index.enumEntries.length = k.enumEntries.length
  functionPositions : Positions index.functionPositions k.functions
  accessorPositions (s : String) (i : Nat) (role : AccessorRole) :
    index.accessorPositions.find? s = some (i, role) ↔
      ∃ p, k.properties[i]? = some p ∧ p.accessor role = some s
  constructorPositions : Positions index.constructorPositions k.constructors
  enumEntryPositions : Positions index.enumEntryPositions k.enumEntries

end DescriptorIndex

/-- Whether a string is there. -/
def StringTable.Has (strings : StringTable) (id : StringId) : Prop :=
  ∃ text, strings.get id = .ok text

theorem StringTable.Has.exists_read {strings : StringTable} {id : StringId} (h : strings.Has id) :
    ∃ text, strings.read id = .ok text := by
  obtain ⟨text, htext⟩ := h
  exact ⟨text, Except.mapError_eq_ok_iff.mpr htext⟩

theorem StringTable.exists_read? {strings : StringTable} {id? : Option StringId}
    (h : ∀ id ∈ id?, strings.Has id) : ∃ text?, strings.read? id? = .ok text? := by
  cases id? with
  | none => exact ⟨none, rfl⟩
  | some id =>
    obtain ⟨text, htext⟩ := (h id rfl).exists_read
    exact ⟨some text, by rw [read?, htext]; rfl⟩

/-- Whether a function has a signature and all names that it refers to are there. -/
structure FunctionDescriptor.Reads (scope : Scope) (f : FunctionDescriptor) (signature : String) :
    Prop where
  signature : scope.functionSignature f = .ok signature
  name : scope.strings.Has f.name
  parameters : ∀ p ∈ f.valueParameters, scope.strings.Has p.name
  typeParameters : ∀ p ∈ f.typeParameters, scope.strings.Has p.name

/-- Whether the methods of a property have signatures and all names that it refers to are there. -/
structure PropertyDescriptor.Reads (scope : Scope) (p : PropertyDescriptor)
    (signatures : AccessorSignatures) : Prop where
  signatures : scope.accessorSignatures p = .ok signatures
  fieldName : ∀ id ∈ p.members.field.bind FieldSignature.name, scope.strings.Has id
  name : scope.strings.Has p.name

/-- Whether a constructor has a signature and all names that it refers to are there. -/
structure ConstructorDescriptor.Reads (scope : Scope) (owner : String) (isEnum : Bool)
    (c : ConstructorDescriptor) (signature : String) : Prop where
  signature : scope.constructorSignature owner c isEnum = .ok signature
  parameters : ∀ p ∈ c.valueParameters, scope.strings.Has p.name

namespace DescriptorIndex

variable {scope : Scope} {owner : String} {k : IndexKeys} {index : DescriptorIndex}

theorem exists_parameters {strings : StringTable} {params : List ParameterDescriptor}
    (h : ∀ p ∈ params, strings.Has p.name) : ∃ ps, parameters strings params = .ok ps := by
  refine Except.exists_mapM_ok fun p hp => ?_
  obtain ⟨name, hname⟩ := (h p hp).exists_read
  rw [hname]
  exact ⟨_, rfl⟩

theorem exists_typeParameterNames {strings : StringTable} {params : List TypeParameterDescriptor}
    (h : ∀ p ∈ params, strings.Has p.name) : ∃ names, typeParameterNames strings params = .ok names :=
  Except.exists_mapM_ok fun p hp => (h p hp).exists_read

theorem Tracks.addFunction {f : FunctionDescriptor} {signature : String}
    (h : Tracks owner k index) (hnodup : k.functions.Nodup) (hf : f.Reads scope signature) :
    Settles owner (k.functions ++ [signature]).Nodup (List.Duplicate · (k.functions ++ [signature]))
      (Tracks owner { k with functions := k.functions ++ [signature] })
      (addFunction scope index f) := by
  obtain ⟨name, hname⟩ := hf.name.exists_read
  obtain ⟨ps, hps⟩ := exists_parameters hf.parameters
  obtain ⟨names, hnames⟩ := exists_typeParameterNames hf.typeParameters
  obtain rfl := h.owner
  unfold DescriptorIndex.addFunction
  rw [hf.signature, hname, hps, hnames]
  let function : IndexedFunction := ⟨name, signature, ps, names, f.receiver.isSome, f.isSuspending⟩
  refine Settles.record (g := fun table =>
    { index with functions := index.functions ++ [function], functionPositions := table })
    h.functionPositions.exists_find?_iff hnodup fun table hrecord => ?_
  exact { h with
    functions := by simp [h.functions]
    functionPositions := h.functionPositions.record h.functions hrecord }

theorem Tracks.addConstructor {isEnum : Bool} {c : ConstructorDescriptor} {signature : String}
    (h : Tracks owner k index) (hnodup : k.constructors.Nodup)
    (hc : c.Reads scope owner isEnum signature) :
    Settles owner (k.constructors ++ [signature]).Nodup
      (List.Duplicate · (k.constructors ++ [signature]))
      (Tracks owner { k with constructors := k.constructors ++ [signature] })
      (addConstructor scope isEnum index c) := by
  obtain ⟨ps, hps⟩ := exists_parameters hc.parameters
  obtain rfl := h.owner
  unfold DescriptorIndex.addConstructor
  rw [hc.signature, hps]
  refine Settles.record (g := fun table => { index with
      constructors := index.constructors ++ [⟨signature, c.isPrimary, ps⟩]
      constructorPositions := table })
    h.constructorPositions.exists_find?_iff hnodup fun table hrecord => ?_
  exact { h with
    constructors := by simp [h.constructors]
    constructorPositions := h.constructorPositions.record h.constructors hrecord }

theorem Tracks.addEnumEntry {strings : StringTable} {entry : StringId} {name : String}
    (h : Tracks owner k index) (hnodup : k.enumEntries.Nodup) (hname : strings.get entry = .ok name) :
    Settles owner (k.enumEntries ++ [name]).Nodup (List.Duplicate · (k.enumEntries ++ [name]))
      (Tracks owner { k with enumEntries := k.enumEntries ++ [name] })
      (addEnumEntry strings index entry) := by
  have hread : strings.read entry = .ok name := Except.mapError_eq_ok_iff.mpr hname
  obtain rfl := h.owner
  unfold DescriptorIndex.addEnumEntry
  rw [hread]
  refine Settles.record (g := fun table => { index with
      enumEntries := index.enumEntries ++ [name]
      enumEntryPositions := table })
    h.enumEntryPositions.exists_find?_iff hnodup fun table hrecord => ?_
  exact { h with
    enumEntries := by simp [h.enumEntries]
    enumEntryPositions := h.enumEntryPositions.record h.enumEntries hrecord }

theorem Tracks.exists_accessor_iff (h : Tracks owner k index) (s : String) :
    (∃ v, index.accessorPositions.find? s = some v) ↔ s ∈ k.accessors := by
  simp only [IndexKeys.accessors, List.mem_flatMap, AccessorSignatures.mem_toList, Prod.exists,
    h.accessorPositions]
  constructor
  · rintro ⟨i, role, p, hi, hp⟩
    exact ⟨p, List.mem_of_getElem? hi, role, hp⟩
  · rintro ⟨p, hmem, role, hp⟩
    obtain ⟨i, hi⟩ := List.mem_iff_getElem?.mp hmem
    exact ⟨i, role, p, hi, hp⟩

section Accessors

variable {accessors : List String} {position : Nat} {done : List (Option String × AccessorRole)}
  {i : DescriptorIndex}

/-- After some methods of one more property, the table has their signatures besides the earlier ones. -/
theorem exists_entered_iff
    (hkeys : ∀ s, (∃ v, index.accessorPositions.find? s = some v) ↔ s ∈ accessors)
    (hdone : done.foldlM (addAccessor position) index = .ok i) (s : String) :
    (∃ v, i.accessorPositions.find? s = some v) ↔ s ∈ accessors ++ done.filterMap Prod.fst := by
  have htable : ∀ v, i.accessorPositions.find? s = some v ↔ index.accessorPositions.find? s = some v ∨
      ∃ x ∈ done, x.1 = some s ∧ v = (position, x.2) := (addAccessors_ok hdone).2 s
  rw [List.mem_append, ← hkeys, List.mem_filterMap]
  simp only [htable, exists_or]
  refine or_congr_right ⟨?_, ?_⟩
  · rintro ⟨_, x, hx, hs, rfl⟩
    exact ⟨x, hx, hs⟩
  · rintro ⟨x, hx, hs⟩
    exact ⟨_, x, hx, hs, rfl⟩

theorem settles_addAccessor {x : Option String × AccessorRole} (howner : index.owner = owner)
    (hkeys : ∀ s, (∃ v, index.accessorPositions.find? s = some v) ↔ s ∈ accessors)
    (hdone : done.foldlM (addAccessor position) index = .ok i)
    (hnodup : (accessors ++ done.filterMap Prod.fst).Nodup) :
    Settles owner (accessors ++ (done ++ [x]).filterMap Prod.fst).Nodup
      (List.Duplicate · (accessors ++ (done ++ [x]).filterMap Prod.fst))
      (fun i' => (done ++ [x]).foldlM (addAccessor position) index = .ok i')
      (addAccessor position i x) := by
  have hnext : (done ++ [x]).foldlM (addAccessor position) index = addAccessor position i x := by
    rw [List.foldlM_append, hdone]
    exact bind_pure (addAccessor position i x)
  obtain ⟨signature?, role⟩ := x
  cases signature? with
  | none =>
    have hsame : (done ++ [(none, role)]).filterMap Prod.fst = done.filterMap Prod.fst := by simp
    rw [hsame]
    exact .built hnodup hnext
  | some signature =>
    have hmore : (done ++ [(some signature, role)]).filterMap Prod.fst =
        done.filterMap Prod.fst ++ [signature] := by simp
    have howner' : i.owner = owner := by
      rw [(addAccessors_ok hdone).1]
      exact howner
    subst howner'
    rw [hmore, ← List.append_assoc]
    refine Settles.record (g := fun table => { i with accessorPositions := table })
      (exists_entered_iff hkeys hdone) hnodup fun table hrecord => ?_
    rw [hnext]
    exact Except.bind_eq_ok_iff.mpr ⟨table, hrecord, rfl⟩

/-- The methods of a property are entered if their signatures are new, also among each other. -/
theorem settles_addAccessors (howner : index.owner = owner)
    (hkeys : ∀ s, (∃ v, index.accessorPositions.find? s = some v) ↔ s ∈ accessors)
    (hnodup : accessors.Nodup) (position : Nat) (entries : List (Option String × AccessorRole)) :
    Settles owner (accessors ++ entries.filterMap Prod.fst).Nodup
      (List.Duplicate · (accessors ++ entries.filterMap Prod.fst))
      (fun i => entries.foldlM (addAccessor position) index = .ok i)
      (entries.foldlM (addAccessor position) index) := by
  have hkeys' (done more : List (Option String × AccessorRole)) :
      (accessors ++ done.filterMap Prod.fst).Sublist (accessors ++ (done ++ more).filterMap Prod.fst) := by
    rw [List.filterMap_append, ← List.append_assoc]
    exact List.sublist_append_left _ _
  refine Settles.foldlM (R := Eq) (I := fun done i => done.foldlM (addAccessor position) index = .ok i)
    hkeys' (fun i x done _ hdone hnodup hx => ?_) (List.forall₂_refl entries) rfl (by simpa using hnodup)
  exact hx ▸ settles_addAccessor howner hkeys hdone hnodup

end Accessors

theorem Tracks.addProperty {p : PropertyDescriptor} {signatures : AccessorSignatures}
    (h : Tracks owner k index) (hnodup : k.accessors.Nodup) (hp : p.Reads scope signatures) :
    Settles owner (k.accessors ++ signatures.toList).Nodup
      (List.Duplicate · (k.accessors ++ signatures.toList))
      (Tracks owner { k with properties := k.properties ++ [signatures] })
      (addProperty scope index p) := by
  obtain ⟨fieldName, hfieldName⟩ := StringTable.exists_read? hp.fieldName
  obtain ⟨name, hname⟩ := hp.name.exists_read
  unfold DescriptorIndex.addProperty
  rw [hp.signatures, hfieldName, hname]
  let property : IndexedProperty := ⟨name, p.members.field.isSome, fieldName, signatures.getter,
    signatures.setter, signatures.holder, p.receiver.isSome⟩
  -- The property is listed before its methods are entered, so the errors can name it.
  let next : DescriptorIndex := { index with properties := index.properties ++ [property] }
  have howner : next.owner = owner := h.owner
  have hkeys : ∀ s, (∃ v, next.accessorPositions.find? s = some v) ↔ s ∈ k.accessors :=
    h.exists_accessor_iff
  refine (settles_addAccessors howner hkeys hnodup index.properties.length signatures.byRole).imp id
    (fun _ => id) fun index' hindex' => ?_
  obtain ⟨hsame, htable⟩ := addAccessors_ok hindex'
  rw [hsame]
  exact { h with
    properties := by simp [next, h.properties]
    accessorPositions := fun s i role => by
      refine (htable s (i, role)).trans ((or_congr_left (h.accessorPositions s i role)).trans ?_)
      simp only [getElem?_concat_eq_some, or_and_right, exists_or]
      refine or_congr_right ?_
      rw [h.properties]
      constructor
      · rintro ⟨⟨_, role⟩, hmem, rfl, hposition⟩
        obtain ⟨rfl, rfl⟩ := Prod.mk.inj hposition
        exact ⟨signatures, ⟨rfl, rfl⟩, AccessorSignatures.mem_byRole.mp hmem⟩
      · rintro ⟨_, ⟨rfl, rfl⟩, hrole⟩
        exact ⟨_, AccessorSignatures.mem_byRole.mpr hrole, rfl, rfl⟩ }

theorem Tracks.finds (h : Tracks owner k index) : index.Finds k where
  functionWith? := h.functionPositions
  constructorWith? := h.constructorPositions
  accessorWith? := h.accessorPositions
  enumEntryNamed? := h.enumEntryPositions
  reserves_method s := by
    rw [← h.functionPositions.exists_find?_iff, ← h.exists_accessor_iff]
    simp [DescriptorIndex.reserves, DescriptorIndex.functionWith?, DescriptorIndex.accessorWith?,
      Option.isSome_iff_exists]
  reserves_constructor s := by
    rw [← h.constructorPositions.exists_find?_iff]
    simp [DescriptorIndex.reserves, DescriptorIndex.constructorWith?, Option.isSome_iff_exists]

theorem tracks_empty (owner : String) : Tracks owner {} { owner } := by
  constructor <;> simp [Positions]

theorem settles_functions {functions : List FunctionDescriptor} {signatures : List String}
    (h : List.Forall₂ (FunctionDescriptor.Reads scope) functions signatures)
    (hindex : Tracks owner { k with functions := [] } index) :
    Settles owner signatures.Nodup (List.Duplicate · signatures)
      (Tracks owner { k with functions := signatures })
      (functions.foldlM (addFunction scope) index) := by
  refine Settles.foldlM (I := fun done => Tracks owner { k with functions := done })
    List.sublist_append_left (fun _ _ done _ hdone hnodup hf => ?_) h hindex List.nodup_nil
  exact hdone.addFunction hnodup hf

theorem settles_properties {properties : List PropertyDescriptor}
    {signatures : List AccessorSignatures}
    (h : List.Forall₂ (PropertyDescriptor.Reads scope) properties signatures)
    (hindex : Tracks owner { k with properties := [] } index) :
    Settles owner (signatures.flatMap AccessorSignatures.toList).Nodup
      (List.Duplicate · (signatures.flatMap AccessorSignatures.toList))
      (Tracks owner { k with properties := signatures })
      (properties.foldlM (addProperty scope) index) := by
  have hkeys (done more : List AccessorSignatures) :
      (done.flatMap AccessorSignatures.toList).Sublist
        ((done ++ more).flatMap AccessorSignatures.toList) := by
    rw [List.flatMap_append]
    exact List.sublist_append_left _ _
  refine Settles.foldlM (I := fun done => Tracks owner { k with properties := done })
    hkeys (fun _ _ done _ hdone hnodup hp => ?_) h hindex List.nodup_nil
  rw [List.flatMap_append, List.flatMap_singleton]
  exact hdone.addProperty hnodup hp

theorem settles_constructors {isEnum : Bool} {constructors : List ConstructorDescriptor}
    {signatures : List String}
    (h : List.Forall₂ (ConstructorDescriptor.Reads scope owner isEnum) constructors signatures)
    (hindex : Tracks owner { k with constructors := [] } index) :
    Settles owner signatures.Nodup (List.Duplicate · signatures)
      (Tracks owner { k with constructors := signatures })
      (constructors.foldlM (addConstructor scope isEnum) index) := by
  refine Settles.foldlM (I := fun done => Tracks owner { k with constructors := done })
    List.sublist_append_left (fun _ _ done _ hdone hnodup hc => ?_) h hindex List.nodup_nil
  exact hdone.addConstructor hnodup hc

theorem settles_enumEntries {strings : StringTable} {entries : List StringId} {names : List String}
    (h : List.Forall₂ (fun entry name => strings.get entry = .ok name) entries names)
    (hindex : Tracks owner { k with enumEntries := [] } index) :
    Settles owner names.Nodup (List.Duplicate · names) (Tracks owner { k with enumEntries := names })
      (entries.foldlM (addEnumEntry strings) index) := by
  refine Settles.foldlM (I := fun done => Tracks owner { k with enumEntries := done })
    List.sublist_append_left (fun _ _ done _ hdone hnodup hname => ?_) h hindex List.nodup_nil
  exact hdone.addEnumEntry hnodup hname

end DescriptorIndex

/-- Whether the descriptors of a class have the given keys, and all other names that they refer to are
there. -/
structure ClassMetadata.Reads (metadata : ClassMetadata) (owner : String) (k : IndexKeys) : Prop where
  functions : List.Forall₂ (FunctionDescriptor.Reads
    (Scope.enter ⟨metadata.strings, []⟩ metadata.descriptor.typeParameters))
    metadata.descriptor.functions k.functions
  properties : List.Forall₂ (PropertyDescriptor.Reads
    (Scope.enter ⟨metadata.strings, []⟩ metadata.descriptor.typeParameters))
    metadata.descriptor.properties k.properties
  constructors : List.Forall₂ (ConstructorDescriptor.Reads
    (Scope.enter ⟨metadata.strings, []⟩ metadata.descriptor.typeParameters) owner
    (metadata.descriptor.kind = .enum)) metadata.descriptor.constructors k.constructors
  typeParameters : ∀ p ∈ metadata.descriptor.typeParameters, metadata.strings.Has p.name
  enumEntries : List.Forall₂ (fun entry name => metadata.strings.get entry = .ok name)
    metadata.descriptor.enumEntries k.enumEntries

/-- Whether the descriptors of a file have the given keys, and all other names that they refer to are
there. -/
structure PackageMetadata.Reads (metadata : PackageMetadata) (k : IndexKeys) : Prop where
  functions : List.Forall₂ (FunctionDescriptor.Reads ⟨metadata.strings, []⟩)
    metadata.descriptor.functions k.functions
  properties : List.Forall₂ (PropertyDescriptor.Reads ⟨metadata.strings, []⟩)
    metadata.descriptor.properties k.properties
  constructors : k.constructors = []
  enumEntries : k.enumEntries = []

/-- Whether an index is built exactly from distinct keys. It finds exactly these then, and the error
names a repeated one otherwise. -/
structure IndexKeys.Decides (k : IndexKeys) (owner : String)
    (result : Except ResolveError DescriptorIndex) : Prop where
  ok_iff : (∃ index, result = .ok index) ↔ k.Distinct
  refused (h : ¬ k.Distinct) : ∃ key first second,
    k.Repeats key ∧ result = .error (.duplicateDescriptor owner key first second)
  finds (index : DescriptorIndex) (h : result = .ok index) : index.Finds k

namespace DescriptorIndex

theorem Settles.decides {owner : String} {k : IndexKeys}
    {result : Except ResolveError DescriptorIndex}
    (h : Settles owner k.Distinct k.Repeats (Tracks owner k) result) : k.Decides owner result := by
  cases h with
  | @built index hdistinct hindex =>
    refine ⟨⟨fun _ => hdistinct, fun _ => ⟨index, rfl⟩⟩, fun h => absurd hdistinct h, fun _ h => ?_⟩
    obtain rfl := Except.ok.inj h
    exact hindex.finds
  | refused hkey =>
    refine ⟨⟨nofun, fun h => absurd h hkey.not_distinct⟩, fun _ => ⟨_, _, _, hkey, rfl⟩, nofun⟩

theorem settles_ofClass {owner : String} {metadata : ClassMetadata} {k : IndexKeys}
    (h : metadata.Reads owner k) :
    Settles owner k.Distinct k.Repeats (Tracks owner k) (ofClass owner metadata) := by
  obtain ⟨names, hnames⟩ := exists_typeParameterNames h.typeParameters
  refine (settles_functions (k := {}) h.functions (tracks_empty owner)).bind fun index hindex => ?_
  refine (settles_properties (k := { functions := k.functions }) h.properties hindex).bind
    fun index hindex => ?_
  refine (settles_constructors (k := { functions := k.functions, properties := k.properties })
    h.constructors hindex).bind fun index hindex => ?_
  rw [hnames]
  exact settles_enumEntries (k := k) h.enumEntries { hindex with }

theorem settles_ofPackage {owner : String} {metadata : PackageMetadata} {k : IndexKeys}
    (h : metadata.Reads k) :
    Settles owner k.Distinct k.Repeats (Tracks owner k) (ofPackage owner metadata) := by
  obtain ⟨functions, properties, constructors, enumEntries⟩ := k
  obtain ⟨hfunctions, hproperties, rfl, rfl⟩ := h
  refine ((settles_functions (k := {}) hfunctions (tracks_empty owner)).bind fun index hindex =>
    settles_properties (k := { functions }) hproperties hindex).imp ?_ ?_ fun _ => id
  · rintro ⟨hfunctions, hproperties⟩
    exact ⟨hfunctions, hproperties, List.nodup_nil, List.nodup_nil⟩
  · rintro key (hkey | hkey)
    · exact .inl hkey
    · exact .inr (.inl hkey)

/-- An index of a class or file with readable descriptors is built exactly if the signatures and names
of each kind are distinct. -/
theorem decides_ofClass_ofPackage (owner : String) (k : IndexKeys) :
    (∀ metadata : ClassMetadata, metadata.Reads owner k →
      k.Decides owner (ofClass owner metadata)) ∧
    ∀ metadata : PackageMetadata, metadata.Reads k → k.Decides owner (ofPackage owner metadata) :=
  ⟨fun _ h => (settles_ofClass h).decides, fun _ h => (settles_ofPackage h).decides⟩

end DescriptorIndex

/-- The strings of a few descriptors. -/
def StringTable.counting : StringTable :=
  ⟨⟨["p/Mode", "add", "kotlin/Int", "kotlin/Unit", "count", "getCount", "()I", "setCount", "(I)V", "ON",
    "OFF"]⟩⟩

/-- A function that takes a number. -/
def FunctionDescriptor.adding : FunctionDescriptor where
  name := ⟨1⟩
  valueParameters := [{ name := ⟨4⟩, type := .named ⟨2⟩ }]
  returnType := .named ⟨3⟩

/-- A property with a getter and a setter. -/
def PropertyDescriptor.counting : PropertyDescriptor where
  name := ⟨4⟩
  returnType := .named ⟨2⟩
  members := { getter := some ⟨⟨5⟩, ⟨6⟩⟩, setter := some ⟨⟨7⟩, ⟨8⟩⟩ }

/-- An enum with two entries, a function and a property. -/
def ClassMetadata.counting : ClassMetadata where
  strings := .counting
  descriptor :=
    { qualifiedName := ⟨0⟩
      kind := .enum
      constructors := [{}]
      functions := [.adding]
      properties := [.counting]
      enumEntries := [⟨9⟩, ⟨10⟩] }

/-- A file with one property twice. -/
def PackageMetadata.counting : PackageMetadata where
  strings := .counting
  descriptor := { properties := [.counting, .counting] }

/-- What the methods of the property are found by. -/
def AccessorSignatures.counting : AccessorSignatures where
  getter := some "getCount()I"
  setter := some "setCount(I)V"
  holder := none

/-- What the descriptors of the enum are found by. -/
def IndexKeys.counting : IndexKeys where
  functions := ["add(I)V"]
  properties := [.counting]
  constructors := ["<init>()V"]
  enumEntries := ["ON", "OFF"]

theorem FunctionDescriptor.reads_adding :
    FunctionDescriptor.adding.Reads ⟨.counting, []⟩ "add(I)V" where
  signature := by
    have hparameter : Scope.encode ⟨.counting, []⟩ (.named ⟨2⟩) .value = .ok "I" := by cbv
    have hresult : Scope.encode ⟨.counting, []⟩ (.named ⟨3⟩) .result = .ok "V" := by cbv
    simp only [FunctionDescriptor.adding, Scope.functionSignature, Scope.encodeParameters, Scope.enter,
      List.reverse_nil, List.nil_append, List.mapM_cons, List.mapM_nil, hparameter, hresult]
    rfl
  name := ⟨_, rfl⟩
  parameters p hp := by
    obtain rfl := List.mem_singleton.mp hp
    exact ⟨_, rfl⟩
  typeParameters := nofun

theorem PropertyDescriptor.reads_counting :
    PropertyDescriptor.counting.Reads ⟨.counting, []⟩ .counting where
  signatures := rfl
  fieldName := nofun
  name := ⟨_, rfl⟩

theorem ClassMetadata.reads_counting : ClassMetadata.counting.Reads "p.Mode" .counting where
  functions := .cons FunctionDescriptor.reads_adding .nil
  properties := .cons PropertyDescriptor.reads_counting .nil
  constructors := .cons ⟨rfl, nofun⟩ .nil
  typeParameters := nofun
  enumEntries := .cons rfl (.cons rfl .nil)

theorem PackageMetadata.reads_counting :
    PackageMetadata.counting.Reads { properties := [.counting, .counting] } where
  functions := .nil
  properties := .cons PropertyDescriptor.reads_counting (.cons PropertyDescriptor.reads_counting .nil)
  constructors := rfl
  enumEntries := rfl

/-- The descriptors of the enum are found, and the file with one property twice is refused. -/
theorem DescriptorIndex.ofClass_ofPackage_counting :
    (∃ index, ofClass "p.Mode" .counting = .ok index ∧
      index.accessorWith? "setCount(I)V" = some (0, .setter) ∧ index.enumEntryNamed? "OFF" = some 1) ∧
    ∃ key first second,
      ofPackage "p.CountKt" .counting = .error (.duplicateDescriptor "p.CountKt" key first second) := by
  have hclass := (decides_ofClass_ofPackage "p.Mode" .counting).1 .counting
    ClassMetadata.reads_counting
  have hpackage := (decides_ofClass_ofPackage "p.CountKt" { properties := [.counting, .counting] }).2
    .counting PackageMetadata.reads_counting
  constructor
  · obtain ⟨index, hindex⟩ := hclass.ok_iff.mpr ⟨by decide, by decide, by decide, by decide⟩
    have hfinds := hclass.finds index hindex
    exact ⟨index, hindex, (hfinds.accessorWith? _ _ _).mpr ⟨_, rfl, rfl⟩,
      (hfinds.enumEntryNamed? _ _).mpr rfl⟩
  · obtain ⟨key, first, second, -, herror⟩ := hpackage.refused fun h => absurd h.2.1 (by decide)
    exact ⟨key, first, second, herror⟩

end Correspondence
