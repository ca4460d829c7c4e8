import Correspondence.Decl.Host
import Correspondence.Index
import Mathlib.Data.List.Forall2
import Mathlib.Data.List.Induction
import Mathlib.Data.List.Nodup

/-!
# Descriptors of an index

An index has the functions and properties of the metadata, in order, and finds by a signature exactly
the positions at which it is recorded.
-/

namespace Correspondence

theorem Except.bind_eq_ok_iff {ε α β : Type} {x : Except ε α} {f : α → Except ε β} {y : β} :
    x >>= f = .ok y ↔ ∃ a, x = .ok a ∧ f a = .ok y := by
  cases x <;> simp [bind, Except.bind]

theorem Except.bind_eq_error_iff {ε α β : Type} {x : Except ε α} {f : α → Except ε β} {e : ε} :
    x >>= f = .error e ↔ x = .error e ∨ ∃ a, x = .ok a ∧ f a = .error e := by
  cases x <;> simp [bind, Except.bind]

theorem Except.map_eq_ok_iff {ε α β : Type} {x : Except ε α} {f : α → β} {y : β} :
    x.map f = .ok y ↔ ∃ a, x = .ok a ∧ f a = y := by
  cases x <;> simp [Except.map]

theorem Except.mapError_eq_ok_iff {ε ε' α : Type} {f : ε → ε'} {x : Except ε α} {a : α} :
    x.mapError f = .ok a ↔ x = .ok a := by
  cases x <;> simp [Except.mapError]

theorem Except.toOption_eq_some_iff {ε α : Type} {x : Except ε α} {a : α} :
    x.toOption = some a ↔ x = .ok a := by
  cases x <;> simp [Except.toOption]

section StateT

variable {σ ε α β : Type} {s s' : σ}

theorem StateT.bind_eq_ok_iff {x : StateT σ (Except ε) α} {f : α → StateT σ (Except ε) β}
    {p : β × σ} : (x >>= f) s = .ok p ↔ ∃ a s', x s = .ok (a, s') ∧ f a s' = .ok p := by
  change (x s >>= fun q => f q.1 q.2) = .ok p ↔ _
  rw [Except.bind_eq_ok_iff, Prod.exists]

theorem StateT.pure_eq_ok_iff {a a' : α} :
    (pure a : StateT σ (Except ε) α) s = .ok (a', s') ↔ a' = a ∧ s' = s := by
  change Except.ok (a, s) = .ok (a', s') ↔ _
  simp [eq_comm]

end StateT

/-- An element of a list without repetitions is found where it stands. -/
theorem idxOf?_eq_some_of_nodup {α : Type} [DecidableEq α] {l : List α} (hnodup : l.Nodup) {i : Nat}
    {a : α} (h : l[i]? = some a) : l.idxOf? a = some i := by
  obtain ⟨hi, ha⟩ := List.getElem?_eq_some_iff.mp h
  refine List.idxOf?_eq_some_iff.mpr ⟨hi, ha, fun j hj hsame => ?_⟩
  have hji := (List.Nodup.getElem_inj_iff hnodup).mp (hsame.trans ha.symm)
  omega

theorem exists_of_mem_forall₂ {α β : Type} {R : α → β → Prop} {l : List α} {ys : List β}
    (h : List.Forall₂ R l ys) {y : β} (hy : y ∈ ys) : ∃ x ∈ l, R x y := by
  induction h with
  | nil => simp at hy
  | cons hR _ ih =>
    rcases List.mem_cons.mp hy with rfl | hy
    · exact ⟨_, List.mem_cons_self, hR⟩
    · obtain ⟨x, hx, hR⟩ := ih hy
      exact ⟨x, List.mem_cons_of_mem _ hx, hR⟩

theorem exists_getElem?_of_forall₂ {α β : Type} {R : α → β → Prop} {l : List α} {ys : List β}
    (h : List.Forall₂ R l ys) {i : Nat} {y : β} (hy : ys[i]? = some y) :
    ∃ x, l[i]? = some x ∧ R x y := by
  obtain ⟨hi, rfl⟩ := List.getElem?_eq_some_iff.mp hy
  have hi' : i < l.length := h.length_eq ▸ hi
  exact ⟨_, List.getElem?_eq_getElem hi', h.get hi' hi⟩

theorem eraseDups_concat {α : Type} [DecidableEq α] (l : List α) (x : α) :
    (l ++ [x]).eraseDups = if x ∈ l then l.eraseDups else l.eraseDups ++ [x] := by
  rw [List.eraseDups_append]
  by_cases hx : x ∈ l
  · simp [hx, List.removeAll]
  · simp [hx, List.removeAll, List.eraseDups_cons]

theorem eraseDups_of_nodup {α : Type} [DecidableEq α] {l : List α} (h : l.Nodup) :
    l.eraseDups = l := by
  induction l using List.reverseRecOn with
  | nil => rfl
  | append_singleton l x ih =>
    rw [List.nodup_append] at h
    have hx : x ∉ l := fun hmem => h.2.2 x hmem x (by simp) rfl
    rw [eraseDups_concat, if_neg hx, ih h.1]

theorem nodup_eraseDups {α : Type} [DecidableEq α] (l : List α) : l.eraseDups.Nodup := by
  induction l using List.reverseRecOn with
  | nil => exact .nil
  | append_singleton l x ih =>
    rw [eraseDups_concat]
    split
    · exact ih
    · rename_i hx
      rw [← List.concat_eq_append]
      exact ih.concat fun hmem => hx (List.mem_eraseDups.mp hmem)

theorem Except.forall₂_of_mapM {ε α β : Type} {f : α → Except ε β} {l : List α} {ys : List β}
    (h : l.mapM f = .ok ys) : List.Forall₂ (fun x y => f x = .ok y) l ys := by
  induction l generalizing ys with
  | nil =>
    obtain rfl := Except.ok.inj h
    exact .nil
  | cons x l ih =>
    rw [List.mapM_cons] at h
    obtain ⟨y, hy, h⟩ := Except.bind_eq_ok_iff.mp h
    obtain ⟨ys', hys, h⟩ := Except.bind_eq_ok_iff.mp h
    obtain rfl := Except.ok.inj h
    exact .cons hy (ih hys)

/-- Whether an indexed function has the implicit parameters that a descriptor declares. -/
structure IndexedFunction.Describes (f : IndexedFunction) (d : FunctionDescriptor) : Prop where
  hasReceiver : f.hasReceiver = d.receiver.isSome
  isSuspending : f.isSuspending = d.isSuspending

/-- Whether an indexed function has the signature and the parameters of a descriptor. -/
structure IndexedFunction.MadeFrom (scope : Scope) (f : IndexedFunction) (d : FunctionDescriptor) :
    Prop extends f.Describes d where
  signature : scope.functionSignature d = .ok f.signature
  parameters : f.parameters.length = d.valueParameters.length

/-- Whether an indexed property has a receiver exactly if a descriptor declares one. -/
def IndexedProperty.Describes (p : IndexedProperty) (d : PropertyDescriptor) : Prop :=
  p.hasReceiver = d.receiver.isSome

/-- The recorded signature of the method with a role. -/
def PropertySignature.accessor (s : PropertySignature) : AccessorRole → Option MethodSignature
  | .field => none
  | .getter => s.getter
  | .setter => s.setter
  | .holder => s.holder

/-- Whether an indexed property has the name of a descriptor and the signatures that it records. -/
structure IndexedProperty.MadeFrom (strings : StringTable) (p : IndexedProperty)
    (d : PropertyDescriptor) : Prop where
  describes : p.Describes d
  name : strings.get d.name = .ok p.name
  accessor (role : AccessorRole) :
    Scope.recorded? ⟨strings, []⟩ (d.members.accessor role) = .ok (p.accessor role)

/-- Whether an indexed constructor has the signature and the parameters of a descriptor. -/
structure IndexedConstructor.MadeFrom (scope : Scope) (isEnum : Bool) (c : IndexedConstructor)
    (d : ConstructorDescriptor) : Prop where
  signature : ∃ owner, scope.constructorSignature owner d isEnum = .ok c.signature
  parameters : c.parameters.length = d.valueParameters.length

namespace DescriptorIndex

variable {scope : Scope} {index index' : DescriptorIndex}

/-- Whether an index is one of the given functions and properties. -/
structure Indexes (index : DescriptorIndex) (functions : List FunctionDescriptor)
    (properties : List PropertyDescriptor) : Prop where
  functions : List.Forall₂ IndexedFunction.Describes index.functions functions
  properties : List.Forall₂ IndexedProperty.Describes index.properties properties
  functionWith? {s : String} {i : Nat} : index.functionWith? s = some i ↔
    ∃ f, index.functions[i]? = some f ∧ f.signature = s
  accessorWith? {s : String} {i : Nat} {role : AccessorRole} :
    index.accessorWith? s = some (i, role) ↔
      ∃ p, index.properties[i]? = some p ∧ p.accessor role = some s

/-- Whether an index has the functions and constructors of the given descriptors, with their signatures
and parameters. -/
structure MadeFrom (index : DescriptorIndex) (scope : Scope) (isEnum : Bool)
    (functions : List FunctionDescriptor) (constructors : List ConstructorDescriptor) : Prop where
  functions : List.Forall₂ (IndexedFunction.MadeFrom scope) index.functions functions
  constructors : List.Forall₂ (IndexedConstructor.MadeFrom scope isEnum) index.constructors
    constructors

/-- Whether a table finds the keys of a list, each at its place. -/
def Positions (table : Lookup String Nat) (keys : List String) : Prop :=
  ∀ s i, table.find? s = some i ↔ keys[i]? = some s

theorem record_eq_ok {β : Type} {owner key : String} {table table' : Lookup String β}
    {value : β} {describe : β → String} (h : record owner table key value describe = .ok table')
    {s : String} {v : β} : table'.find? s = some v ↔ table.find? s = some v ∨ key = s ∧ v = value := by
  unfold record at h
  split at h
  · rename_i hnew
    obtain rfl := Except.ok.inj h
    rw [Lookup.find?_insert]
    split
    · rename_i hs
      subst hs
      simp [hnew, eq_comm]
    · rename_i hs
      simp [Ne.symm hs]
  · cases h

theorem getElem?_concat_eq_some {α : Type} {l : List α} {x y : α} {i : Nat} :
    (l ++ [x])[i]? = some y ↔ l[i]? = some y ∨ i = l.length ∧ y = x := by
  rcases Nat.lt_trichotomy i l.length with hlt | rfl | hlt
  · simp [List.getElem?_append_left hlt, Nat.ne_of_lt hlt]
  · simp [eq_comm]
  · have hnone : l[i]? = none := List.getElem?_eq_none (Nat.le_of_lt hlt)
    have hnone' : (l ++ [x])[i]? = none := List.getElem?_eq_none (by simpa using Nat.succ_le_of_lt hlt)
    simp [hnone, hnone', Nat.ne_of_gt hlt]

namespace Positions

variable {table : Lookup String Nat} {keys : List String}

theorem exists_find?_iff (h : Positions table keys) (s : String) :
    (∃ i, table.find? s = some i) ↔ s ∈ keys := by
  rw [List.mem_iff_getElem?]
  exact exists_congr fun i => h s i

theorem record (h : Positions table keys) {owner key : String} {n : Nat} {describe : Nat → String}
    {table' : Lookup String Nat} (hn : n = keys.length)
    (hrecord : record owner table key n describe = .ok table') : Positions table' (keys ++ [key]) := by
  intro s i
  rw [record_eq_ok hrecord, h s i, getElem?_concat_eq_some, hn, and_comm, @eq_comm _ key]

/-- Keys that are found are distinct. -/
theorem eq_of_getElem? (h : Positions table keys) {i j : Nat} {s : String} (hi : keys[i]? = some s)
    (hj : keys[j]? = some s) : i = j :=
  Option.some.inj (((h s i).mpr hi).symm.trans ((h s j).mpr hj))

end Positions

private theorem length_of_parameters {strings : StringTable} {params : List ParameterDescriptor}
    {ps : List IndexedParameter} (h : parameters strings params = .ok ps) :
    ps.length = params.length :=
  (Except.forall₂_of_mapM h).length_eq.symm

/-- A function is added with the signature of its descriptor, which is entered at its position. -/
private theorem addFunction_eq_ok {d : FunctionDescriptor}
    (h : addFunction scope index d = .ok index') :
    ∃ f table describe, f.MadeFrom scope d ∧
      record index.owner index.functionPositions f.signature index.functions.length describe =
        .ok table ∧
      index' = { index with functions := index.functions ++ [f], functionPositions := table } := by
  obtain ⟨signature, hsignature, h⟩ := Except.bind_eq_ok_iff.mp h
  obtain ⟨name, -, h⟩ := Except.bind_eq_ok_iff.mp h
  obtain ⟨parameters, hparameters, h⟩ := Except.bind_eq_ok_iff.mp h
  obtain ⟨typeParameters, -, h⟩ := Except.bind_eq_ok_iff.mp h
  obtain ⟨positions, hpositions, h⟩ := Except.bind_eq_ok_iff.mp h
  refine ⟨_, positions, _, ⟨⟨rfl, rfl⟩, Except.mapError_eq_ok_iff.mp hsignature,
    length_of_parameters hparameters⟩, hpositions, (Except.ok.inj h).symm⟩

/-- A constructor is added with the signature of its descriptor. -/
private theorem addConstructor_eq_ok {isEnum : Bool} {d : ConstructorDescriptor}
    (h : addConstructor scope isEnum index d = .ok index') :
    ∃ c table, c.MadeFrom scope isEnum d ∧
      index' =
        { index with constructors := index.constructors ++ [c], constructorPositions := table } := by
  obtain ⟨signature, hsignature, h⟩ := Except.bind_eq_ok_iff.mp h
  obtain ⟨parameters, hparameters, h⟩ := Except.bind_eq_ok_iff.mp h
  obtain ⟨positions, -, h⟩ := Except.bind_eq_ok_iff.mp h
  exact ⟨_, positions, ⟨⟨_, hsignature⟩, length_of_parameters hparameters⟩, (Except.ok.inj h).symm⟩

/-- An enum entry is added, and its name entered at its position. -/
private theorem addEnumEntry_eq_ok {strings : StringTable} {entry : StringId}
    (h : addEnumEntry strings index entry = .ok index') :
    ∃ name table describe,
      record index.owner index.enumEntryPositions name index.enumEntries.length describe = .ok table ∧
      index' =
        { index with enumEntries := index.enumEntries ++ [name], enumEntryPositions := table } := by
  obtain ⟨name, -, h⟩ := Except.bind_eq_ok_iff.mp h
  obtain ⟨positions, hpositions, h⟩ := Except.bind_eq_ok_iff.mp h
  exact ⟨name, positions, _, hpositions, (Except.ok.inj h).symm⟩

/-- Each step of a fold treats one more descriptor. -/
private theorem foldlM_ok {α : Type} {f : DescriptorIndex → α → Except ResolveError DescriptorIndex}
    {I : DescriptorIndex → List α → Prop}
    (step : ∀ {i x i' done}, I i done → f i x = .ok i' → I i' (done ++ [x])) {l : List α}
    (done : List α) (hdone : I index done) (h : l.foldlM f index = .ok index') : I index' (done ++ l) := by
  induction l generalizing index done with
  | nil =>
    obtain rfl := Except.ok.inj h
    rwa [List.append_nil]
  | cons x l ih =>
    rw [List.foldlM_cons] at h
    obtain ⟨next, hx, hl⟩ := Except.bind_eq_ok_iff.mp h
    rw [List.append_cons]
    exact ih _ (step hdone hx) hl

/-- Entering accessors changes the table of accessors only. -/
theorem addAccessors_ok {position : Nat} {accessors : List (Option String × AccessorRole)}
    (h : accessors.foldlM (addAccessor position) index = .ok index') :
    index' = { index with accessorPositions := index'.accessorPositions } ∧
      ∀ s v, index'.accessorWith? s = some v ↔
        index.accessorWith? s = some v ∨ ∃ x ∈ accessors, x.1 = some s ∧ v = (position, x.2) := by
  refine foldlM_ok (I := fun i done =>
    i = { index with accessorPositions := i.accessorPositions } ∧
      ∀ s v, i.accessorWith? s = some v ↔
        index.accessorWith? s = some v ∨ ∃ x ∈ done, x.1 = some s ∧ v = (position, x.2))
    (fun {i x i' done} hi hx => ?_) [] ⟨rfl, by simp⟩ h
  obtain ⟨hsame, htable⟩ := hi
  obtain ⟨signature, role⟩ := x
  simp only [List.mem_append, List.mem_singleton, or_and_right, exists_or, exists_eq_left,
    ← or_assoc, ← htable]
  cases signature with
  | none =>
    obtain rfl := Except.ok.inj hx
    exact ⟨hsame, by simp⟩
  | some signature =>
    obtain ⟨positions, hpositions, hx⟩ := Except.bind_eq_ok_iff.mp hx
    obtain rfl := Except.ok.inj hx
    refine ⟨by rw [hsame], fun s v => ?_⟩
    rw [Option.some.injEq]
    exact record_eq_ok hpositions

private theorem accessorSignatures_eq_ok {d : PropertyDescriptor} {s : AccessorSignatures}
    (h : scope.accessorSignatures d = .ok s) :
    scope.recorded? d.members.getter = .ok s.getter ∧
      scope.recorded? d.members.setter = .ok s.setter ∧
      scope.recorded? d.members.holder = .ok s.holder := by
  obtain ⟨getter, hgetter, h⟩ := Except.bind_eq_ok_iff.mp h
  obtain ⟨setter, hsetter, h⟩ := Except.bind_eq_ok_iff.mp h
  obtain ⟨holder, hholder, h⟩ := Except.bind_eq_ok_iff.mp h
  obtain rfl := Except.ok.inj h
  exact ⟨hgetter, hsetter, hholder⟩

/-- A property is added, and the signatures of its methods entered at its position. -/
private theorem addProperty_eq_ok {d : PropertyDescriptor}
    (h : addProperty scope index d = .ok index') :
    ∃ p table, index' =
        { index with properties := index.properties ++ [p], accessorPositions := table } ∧
      p.MadeFrom scope.strings d ∧
      ∀ s i role, table.find? s = some (i, role) ↔ index.accessorWith? s = some (i, role) ∨
        i = index.properties.length ∧ p.accessor role = some s := by
  obtain ⟨signatures, hsignatures, h⟩ := Except.bind_eq_ok_iff.mp h
  obtain ⟨fieldName, -, h⟩ := Except.bind_eq_ok_iff.mp h
  obtain ⟨name, hname, h⟩ := Except.bind_eq_ok_iff.mp h
  obtain ⟨hsame, htable⟩ := addAccessors_ok h
  obtain ⟨hgetter, hsetter, hholder⟩ :=
    accessorSignatures_eq_ok (Except.mapError_eq_ok_iff.mp hsignatures)
  refine ⟨_, _, hsame, ⟨rfl, Except.mapError_eq_ok_iff.mp hname, fun role => ?_⟩,
    fun s i role => (htable s (i, role)).trans (or_congr_right ?_)⟩
  · cases role with
    | field => rfl
    | getter => exact hgetter
    | setter => exact hsetter
    | holder => exact hholder
  · cases role <;> simp [IndexedProperty.accessor, and_comm]

/-- What holds of an index and the descriptors that were added to it, whichever is added next. -/
structure Kept (scope : Scope) (isEnum : Bool)
    (I : DescriptorIndex → List FunctionDescriptor → List PropertyDescriptor →
      List ConstructorDescriptor → Prop) : Prop where
  addFunction {index index' fs ps cs d} : I index fs ps cs →
    addFunction scope index d = .ok index' → I index' (fs ++ [d]) ps cs
  addProperty {index index' fs ps cs d} : I index fs ps cs →
    addProperty scope index d = .ok index' → I index' fs (ps ++ [d]) cs
  addConstructor {index index' fs ps cs d} : I index fs ps cs →
    addConstructor scope isEnum index d = .ok index' → I index' fs ps (cs ++ [d])
  typeParameters {index fs ps cs} (names : List String) : I index fs ps cs →
    I { index with typeParameters := names } fs ps cs
  addEnumEntry {index index' fs ps cs strings entry} : I index fs ps cs →
    addEnumEntry strings index entry = .ok index' → I index' fs ps cs

namespace Kept

variable {isEnum : Bool} {I : DescriptorIndex → List FunctionDescriptor → List PropertyDescriptor →
  List ConstructorDescriptor → Prop}

/-- It holds of the index of a class. -/
theorem ofClass {metadata : ClassMetadata} {owner : String}
    (h : Kept (Scope.enter ⟨metadata.strings, []⟩ metadata.descriptor.typeParameters)
      (metadata.descriptor.kind = .enum) I)
    (hempty : I { owner } [] [] []) (hok : ofClass owner metadata = .ok index) :
    I index metadata.descriptor.functions metadata.descriptor.properties
      metadata.descriptor.constructors := by
  obtain ⟨withFunctions, hfunctions, hok⟩ := Except.bind_eq_ok_iff.mp hok
  obtain ⟨withProperties, hproperties, hok⟩ := Except.bind_eq_ok_iff.mp hok
  obtain ⟨withConstructors, hconstructors, hok⟩ := Except.bind_eq_ok_iff.mp hok
  obtain ⟨names, -, hentries⟩ := Except.bind_eq_ok_iff.mp hok
  have hI := foldlM_ok (I := fun i done => I i done [] []) h.addFunction [] hempty hfunctions
  have hI := foldlM_ok (I := fun i done => I i _ done []) h.addProperty [] hI hproperties
  have hI := foldlM_ok (I := fun i done => I i _ _ done) h.addConstructor [] hI hconstructors
  exact foldlM_ok (I := fun i (_ : List StringId) => I i _ _ _) h.addEnumEntry []
    (h.typeParameters names hI) hentries

/-- It holds of the index of a file. -/
theorem ofPackage {metadata : PackageMetadata} {owner : String}
    (h : Kept ⟨metadata.strings, []⟩ isEnum I) (hempty : I { owner } [] [] [])
    (hok : ofPackage owner metadata = .ok index) :
    I index metadata.descriptor.functions metadata.descriptor.properties [] := by
  obtain ⟨withFunctions, hfunctions, hproperties⟩ := Except.bind_eq_ok_iff.mp hok
  have hI := foldlM_ok (I := fun i done => I i done [] []) h.addFunction [] hempty hfunctions
  exact foldlM_ok (I := fun i done => I i _ done []) h.addProperty [] hI hproperties

end Kept

private theorem kept_indexes (scope : Scope) (isEnum : Bool) :
    Kept scope isEnum fun index fs ps _ => index.Indexes fs ps where
  addFunction {index index' fs ps cs d} hindex h := by
    obtain ⟨f, table, describe, hmade, hrecord, rfl⟩ := addFunction_eq_ok h
    refine ⟨List.rel_append hindex.functions (.cons hmade.toDescribes .nil), hindex.properties,
      fun {s i} => ?_, hindex.accessorWith?⟩
    refine (record_eq_ok hrecord).trans ((or_congr_left hindex.functionWith?).trans ?_)
    simp only [getElem?_concat_eq_some, or_and_right, exists_or]
    refine or_congr_right ⟨?_, ?_⟩
    · rintro ⟨rfl, rfl⟩
      exact ⟨_, ⟨rfl, rfl⟩, rfl⟩
    · rintro ⟨_, ⟨rfl, rfl⟩, rfl⟩
      exact ⟨rfl, rfl⟩
  addProperty {index index' fs ps cs d} hindex h := by
    obtain ⟨p, table, rfl, hmade, htable⟩ := addProperty_eq_ok h
    refine ⟨hindex.functions, List.rel_append hindex.properties (.cons hmade.describes .nil),
      hindex.functionWith?, fun {s i role} => ?_⟩
    refine (htable s i role).trans ((or_congr_left hindex.accessorWith?).trans ?_)
    simp [getElem?_concat_eq_some, or_and_right, exists_or]
  addConstructor hindex h := by
    obtain ⟨c, table, -, rfl⟩ := addConstructor_eq_ok h
    exact { hindex with }
  typeParameters names hindex := { hindex with }
  addEnumEntry hindex h := by
    obtain ⟨name, table, describe, -, rfl⟩ := addEnumEntry_eq_ok h
    exact { hindex with }

private theorem indexes_empty (owner : String) : ({ owner } : DescriptorIndex).Indexes [] [] := by
  constructor <;> simp [DescriptorIndex.functionWith?, DescriptorIndex.accessorWith?]

theorem indexes_ofClass {owner : String} {metadata : ClassMetadata}
    (h : ofClass owner metadata = .ok index) :
    index.Indexes metadata.descriptor.functions metadata.descriptor.properties :=
  (kept_indexes _ _).ofClass (indexes_empty owner) h

theorem indexes_ofPackage {owner : String} {metadata : PackageMetadata}
    (h : ofPackage owner metadata = .ok index) :
    index.Indexes metadata.descriptor.functions metadata.descriptor.properties :=
  (kept_indexes _ false).ofPackage (indexes_empty owner) h

private theorem kept_madeFrom (scope : Scope) (isEnum : Bool) :
    Kept scope isEnum fun index fs _ cs => index.MadeFrom scope isEnum fs cs where
  addFunction hindex h := by
    obtain ⟨f, table, describe, hmade, -, rfl⟩ := addFunction_eq_ok h
    exact ⟨List.rel_append hindex.functions (.cons hmade .nil), hindex.constructors⟩
  addProperty hindex h := by
    obtain ⟨p, table, rfl, -⟩ := addProperty_eq_ok h
    exact { hindex with }
  addConstructor hindex h := by
    obtain ⟨c, table, hmade, rfl⟩ := addConstructor_eq_ok h
    exact ⟨hindex.functions, List.rel_append hindex.constructors (.cons hmade .nil)⟩
  typeParameters names hindex := { hindex with }
  addEnumEntry hindex h := by
    obtain ⟨name, table, describe, -, rfl⟩ := addEnumEntry_eq_ok h
    exact { hindex with }

theorem madeFrom_ofClass {owner : String} {metadata : ClassMetadata}
    (h : ofClass owner metadata = .ok index) :
    index.MadeFrom (Scope.enter ⟨metadata.strings, []⟩ metadata.descriptor.typeParameters)
      (metadata.descriptor.kind = .enum) metadata.descriptor.functions
      metadata.descriptor.constructors :=
  (kept_madeFrom _ _).ofClass ⟨.nil, .nil⟩ h

theorem madeFrom_ofPackage {owner : String} {metadata : PackageMetadata}
    (h : ofPackage owner metadata = .ok index) :
    index.MadeFrom ⟨metadata.strings, []⟩ false metadata.descriptor.functions [] :=
  (kept_madeFrom _ _).ofPackage ⟨.nil, .nil⟩ h

private theorem kept_properties (scope : Scope) (isEnum : Bool) :
    Kept scope isEnum fun index _ ps _ =>
      List.Forall₂ (IndexedProperty.MadeFrom scope.strings) index.properties ps where
  addFunction hindex h := by
    obtain ⟨f, table, describe, -, -, rfl⟩ := addFunction_eq_ok h
    exact hindex
  addProperty hindex h := by
    obtain ⟨p, table, rfl, hmade, -⟩ := addProperty_eq_ok h
    exact List.rel_append hindex (.cons hmade .nil)
  addConstructor hindex h := by
    obtain ⟨c, table, -, rfl⟩ := addConstructor_eq_ok h
    exact hindex
  typeParameters names hindex := hindex
  addEnumEntry hindex h := by
    obtain ⟨name, table, describe, -, rfl⟩ := addEnumEntry_eq_ok h
    exact hindex

theorem properties_ofClass {owner : String} {metadata : ClassMetadata}
    (h : ofClass owner metadata = .ok index) :
    List.Forall₂ (IndexedProperty.MadeFrom metadata.strings) index.properties
      metadata.descriptor.properties :=
  (kept_properties _ _).ofClass .nil h

theorem properties_ofPackage {owner : String} {metadata : PackageMetadata}
    (h : ofPackage owner metadata = .ok index) :
    List.Forall₂ (IndexedProperty.MadeFrom metadata.strings) index.properties
      metadata.descriptor.properties :=
  (kept_properties _ false).ofPackage .nil h

private theorem kept_enumEntries (scope : Scope) (isEnum : Bool) :
    Kept scope isEnum fun index _ _ _ => Positions index.enumEntryPositions index.enumEntries where
  addFunction hindex h := by
    obtain ⟨f, table, describe, -, -, rfl⟩ := addFunction_eq_ok h
    exact hindex
  addProperty hindex h := by
    obtain ⟨p, table, rfl, -⟩ := addProperty_eq_ok h
    exact hindex
  addConstructor hindex h := by
    obtain ⟨c, table, -, rfl⟩ := addConstructor_eq_ok h
    exact hindex
  typeParameters names hindex := hindex
  addEnumEntry hindex h := by
    obtain ⟨name, table, describe, hrecord, rfl⟩ := addEnumEntry_eq_ok h
    exact hindex.record rfl hrecord

/-- Whether an index was made for a class or a file. -/
def IsBuilt (index : DescriptorIndex) : Prop :=
  (∃ owner metadata, ofClass owner metadata = .ok index) ∨
    ∃ owner metadata, ofPackage owner metadata = .ok index

/-- An index finds its enum entries by their names. -/
theorem IsBuilt.enumEntries (h : index.IsBuilt) :
    Positions index.enumEntryPositions index.enumEntries := by
  have hempty (owner : String) : Positions ({ owner } : DescriptorIndex).enumEntryPositions [] := by
    intro s i
    simp
  rcases h with ⟨owner, metadata, h⟩ | ⟨owner, metadata, h⟩
  · exact (kept_enumEntries _ _).ofClass (hempty owner) h
  · exact (kept_enumEntries _ false).ofPackage (hempty owner) h

end DescriptorIndex

/-- The index of the descriptors of a class or file. -/
def Host.index? (host : Host) (decl : DeclId) : Option DescriptorIndex :=
  match host.metadata decl with
  | some (.ofClass metadata) =>
    (DescriptorIndex.ofClass (host.describe decl) metadata).toOption
  | some (.fileFacade metadata) =>
    (DescriptorIndex.ofPackage (host.describe decl) metadata).toOption
  | _ => none

theorem Host.indexes_of_index? {host : Host} {decl : DeclId} {index : DescriptorIndex}
    (h : host.index? decl = some index) :
    ∃ functions properties, index.Indexes functions properties := by
  unfold index? at h
  split at h
  · exact ⟨_, _, DescriptorIndex.indexes_ofClass (Except.toOption_eq_some_iff.mp h)⟩
  · exact ⟨_, _, DescriptorIndex.indexes_ofPackage (Except.toOption_eq_some_iff.mp h)⟩
  · cases h

end Correspondence
