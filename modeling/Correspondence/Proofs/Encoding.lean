import Correspondence.Proofs.Grammar

/-!
# Encoded types

A source type is encoded as the descriptor of one type of compiled code. It is primitive where the source
type is a primitive class that excludes null and no boxing is asked for, and no value where it is the
unit class in a result. So the computed signature of a function can be read back, and it has a type for
the receiver, one for each value parameter and one for the continuation.
-/

namespace Correspondence

/-- The class that a type of compiled code names, itself or as its elements or its bound. -/
def JvmType.className? : JvmType → Option String
  | .object name => some name
  | .array element => element.className?
  | .typeVariable _ bound => bound.className?
  | _ => none

/-- The classes that a source type names, itself or in its arguments. -/
inductive TypeRef.Names : TypeRef → StringId → Prop
  | itself {type : TypeRef} {id : StringId} (h : type.classifier = .named id) : Names type id
  | argument {type argument : TypeRef} {p : Projection} {id : StringId} (hp : p ∈ type.arguments)
      (hargument : p.type? = some argument) (h : Names argument id) : Names type id

/-- Whether all class names in a source type have a property. -/
def TypeRef.NamesOnly (P : String → Prop) (strings : StringTable) (type : TypeRef) : Prop :=
  ∀ id name, type.Names id → strings.get id = .ok name → P name

theorem TypeRef.namesOnly_of_forall {P : String → Prop} {strings : StringTable}
    (h : ∀ text ∈ strings.toList, P text) (type : TypeRef) : type.NamesOnly P strings :=
  fun _ name _ hname => h name (List.mem_of_getElem? (StringTable.get_eq_ok_iff.mp hname))

/-- Whether a source type is the class with a name and excludes null. -/
def TypeRef.IsNonNull (strings : StringTable) (type : TypeRef) (name : String) : Prop :=
  type.nullable = false ∧ ∃ id, type.classifier = .named id ∧ strings.get id = .ok name

/-- Whether a source type is a primitive class and excludes null. -/
def TypeRef.IsPrimitive (strings : StringTable) (type : TypeRef) : Prop :=
  ∃ p ∈ ClassName.primitives, type.IsNonNull strings p.source

theorem mem_of_lookup_eq_some {α β : Type} [BEq α] [LawfulBEq α] {l : List (α × β)} {a : α} {b : β}
    (h : l.lookup a = some b) : (a, b) ∈ l := by
  obtain ⟨l₁, l₂, rfl, -⟩ := List.lookup_eq_some_iff.mp h
  exact List.mem_append_right _ List.mem_cons_self

namespace ClassName

/-- The compiled names that do not come from a source name. -/
def library : List String :=
  "java/lang/Object" :: "kotlin/coroutines/Continuation" :: primitives.map Primitive.boxed

/-- Whether no semicolon cuts a name short. -/
def IsClosed (name : String) : Prop :=
  ';' ∉ name.toList

instance (name : String) : Decidable (IsClosed name) :=
  inferInstanceAs (Decidable (_ ∉ _))

/-- Whether a property of class names passes from source names to the names in descriptors, and no
semicolon cuts such a name short. -/
structure Lasts (P : String → Prop) : Prop where
  closed {name : String} : P name → IsClosed name
  library {name : String} : name ∈ library → P name
  compiled {name : String} : P name → P (compiled name)

/-- Whether no compiled name has a character that the source name lacks. -/
structure IsNeverAdded (c : Char) : Prop where
  mapped : ∀ x ∈ mapped, c ∉ x.2.toList
  start : c ∉ compiledFunctionStart.toList
  digit : c.isDigit = false
  dollar : '$' ≠ c

theorem isNeverAdded_semicolon : IsNeverAdded ';' :=
  ⟨by decide, by decide, by decide, by decide⟩

theorem IsNeverAdded.not_mem_compiled {c : Char} (hc : IsNeverAdded c) {name : String}
    (h : c ∉ name.toList) : c ∉ (compiled name).toList := by
  unfold compiled
  split
  · rename_i counterpart hcounterpart
    exact hc.mapped _ (mem_of_lookup_eq_some hcounterpart)
  · split
    · rename_i arity harity
      have hdigits : arity.all Char.isDigit := by
        have hfilter := (Option.filter_eq_some_iff.mp harity).2
        simp only [Bool.and_eq_true] at hfilter
        exact hfilter.2
      simp only [String.toList_append, String.toList_ofList, List.mem_append, not_or]
      refine ⟨hc.start, fun hmem => ?_⟩
      have := List.all_eq_true.mp hdigits c hmem
      rw [hc.digit] at this
      cases this
    · simp only [String.toList_map, List.mem_map, not_exists, not_and]
      intro d hd
      split
      · exact hc.dollar
      · rintro rfl
        exact h hd

theorem lasts_isClosed : Lasts IsClosed where
  closed := id
  library hname := by
    have hall : ∀ name ∈ ClassName.library, IsClosed name := by decide
    exact hall _ hname
  compiled := isNeverAdded_semicolon.not_mem_compiled

end ClassName

/-- What a source type at some position is encoded as. -/
structure TypeRef.Becomes (P : String → Prop) (strings : StringTable) (type : TypeRef)
    (position : TypePosition) (result : JvmType) : Prop where
  names {name : String} : result.className? = some name → P name
  isResult : result.IsResult
  /-- The unit class is no value in a result. -/
  void_iff : result = .void ↔ position = .result ∧ type.IsNonNull strings ClassName.unit
  /-- Primitive values stay as they are but for arguments. -/
  primitive_iff : result ∈ JvmType.primitives ↔ position ≠ .argument ∧ type.IsPrimitive strings

theorem JvmType.IsField.ne_void {type : JvmType} (h : type.IsField) : type ≠ .void := by
  rintro rfl
  cases h with
  | primitive h => revert h; decide

/-- A primitive type names no class. -/
theorem JvmType.className?_of_mem_primitives {type : JvmType} (h : type ∈ primitives) :
    type.className? = none := by
  have hall : ∀ type ∈ primitives, type.className? = none := by decide
  exact hall type h

namespace TypeRef

variable {P : String → Prop} {strings : StringTable} {type : TypeRef} {position : TypePosition}

theorem isNonNull_iff {id : StringId} {name name' : String} (hid : type.classifier = .named id)
    (hname : strings.get id = .ok name) :
    type.IsNonNull strings name' ↔ type.nullable = false ∧ name = name' := by
  simp only [IsNonNull, hid, Classifier.named.injEq, exists_eq_left', hname, Except.ok.injEq]

theorem isPrimitive_iff {id : StringId} {name : String} (hid : type.classifier = .named id)
    (hname : strings.get id = .ok name) :
    type.IsPrimitive strings ↔ type.nullable = false ∧ (ClassName.primitive? name).isSome := by
  simp only [IsPrimitive, isNonNull_iff hid hname, ClassName.primitive?, List.find?_isSome,
    decide_eq_true_eq]
  constructor
  · rintro ⟨p, hp, hnull, rfl⟩
    exact ⟨hnull, p, hp, rfl⟩
  · rintro ⟨hnull, p, hp, rfl⟩
    exact ⟨p, hp, hnull, rfl⟩

/-- A source type that becomes a class or an array. -/
theorem Becomes.reference {result : JvmType} (hfield : result.IsField)
    (hnot : result ∉ JvmType.primitives) (hnames : ∀ name, result.className? = some name → P name)
    (hvoid : ¬ (position = .result ∧ type.IsNonNull strings ClassName.unit))
    (hprimitive : ¬ (position ≠ .argument ∧ type.IsPrimitive strings)) :
    type.Becomes P strings position result where
  names := hnames _
  isResult := .inl hfield
  void_iff := iff_of_false hfield.ne_void hvoid
  primitive_iff := iff_of_false hnot hprimitive

/-- A source type that is no class becomes a class or an array. -/
theorem Becomes.of_parameter {id : Nat} (hid : type.classifier = .typeParameter id)
    {result : JvmType} (hfield : result.IsField) (hnot : result ∉ JvmType.primitives)
    (hnames : ∀ name, result.className? = some name → P name) :
    type.Becomes P strings position result := by
  have hnone (name : String) : ¬ type.IsNonNull strings name := by
    rintro ⟨-, id', hid', -⟩
    rw [hid] at hid'
    cases hid'
  exact .reference hfield hnot hnames (fun h => hnone _ h.2) fun ⟨_, p, _, h⟩ => hnone _ h

theorem Becomes.isField {result : JvmType} (h : type.Becomes P strings position result)
    (hposition : position ≠ .result) : result.IsField := by
  rcases h.isResult with hfield | hvoid
  · exact hfield
  · exact absurd (h.void_iff.mp hvoid).1 hposition

/-- An argument is boxed. -/
theorem Becomes.not_mem_primitives {result : JvmType} (h : type.Becomes P strings .argument result) :
    result ∉ JvmType.primitives :=
  fun hmem => (h.primitive_iff.mp hmem).1 rfl

end TypeRef

theorem JvmType.object_not_mem_primitives (name : String) : object name ∉ primitives := by
  simp [primitives]

theorem JvmType.array_not_mem_primitives (element : JvmType) : element.array ∉ primitives := by
  simp [primitives]

namespace Scope

variable {P : String → Prop} {scope : Scope}

variable {strings : StringTable} {type : TypeRef} {id : StringId} {name : String}

/-- A primitive class becomes the primitive type, or the class of the boxed values. -/
theorem exists_becomes_primitive (hP : ClassName.Lasts P) (hid : type.classifier = .named id)
    (hname : strings.get id = .ok name) {p : ClassName.Primitive}
    (hp : ClassName.primitive? name = some p) (position : TypePosition) :
    ∃ result, type.Becomes P strings position result ∧
      result.descriptor = if position = .argument || type.nullable
        then referenceDescriptor p.boxed else p.descriptor := by
  have hmem : p ∈ ClassName.primitives := List.mem_of_find?_eq_some hp
  have hsource : p.source = name := by simpa using List.find?_some hp
  have hall : ∀ p ∈ ClassName.primitives, p.source ≠ ClassName.unit ∧
      ∃ type ∈ JvmType.primitives, type.descriptor = p.descriptor := by decide
  obtain ⟨hne, primitive, hprimitives, hdescriptor⟩ := hall p hmem
  have hnotUnit : ¬ type.IsNonNull strings ClassName.unit := by
    rw [TypeRef.isNonNull_iff hid hname, ← hsource]
    exact fun h => hne h.2
  have hnonnull : type.IsPrimitive strings ↔ type.nullable = false := by
    rw [TypeRef.isPrimitive_iff hid hname, hp, Option.isSome_some, and_iff_left rfl]
  by_cases hboxed : position = .argument ∨ type.nullable = true
  · have hlibrary : p.boxed ∈ ClassName.library :=
      List.mem_cons_of_mem _ (List.mem_cons_of_mem _ (List.mem_map_of_mem hmem))
    have hnames : ∀ name, some p.boxed = some name → P name := by
      rintro _ ⟨⟩
      exact hP.library hlibrary
    refine ⟨.object p.boxed, .reference (.object (hP.closed (hP.library hlibrary)))
      (JvmType.object_not_mem_primitives _) hnames (fun h => hnotUnit h.2) ?_, ?_⟩
    · rw [hnonnull]
      rintro ⟨hposition, hnull⟩
      rcases hboxed with hargument | hnullable
      · exact hposition hargument
      · exact Bool.false_ne_true (hnull.symm.trans hnullable)
    · rw [if_pos (by simpa using hboxed)]
      rfl
  · obtain ⟨hposition, hnull⟩ := not_or.mp hboxed
    have hnull : type.nullable = false := Bool.eq_false_iff.mpr hnull
    refine ⟨primitive, ⟨?_, .inl (.primitive hprimitives), ?_, ?_⟩, ?_⟩
    · intro name hclass
      rw [JvmType.className?_of_mem_primitives hprimitives] at hclass
      cases hclass
    · exact iff_of_false (JvmType.IsField.primitive hprimitives).ne_void fun h => hnotUnit h.2
    · exact iff_of_true hprimitives ⟨hposition, hnonnull.mpr hnull⟩
    · rw [if_neg (by simpa using hboxed), hdescriptor]

/-- What a class other than that of arrays of references becomes. -/
theorem exists_becomes_class (hP : ClassName.Lasts P) (hid : type.classifier = .named id)
    (hname : strings.get id = .ok name) (h : P name) (position : TypePosition) :
    ∃ result, type.Becomes P strings position result ∧
      result.descriptor = encodeClass name type.nullable position := by
  unfold encodeClass
  split
  · rename_i p hp
    exact exists_becomes_primitive hP hid hname hp position
  rename_i hp
  have hnotPrimitive : ¬ type.IsPrimitive strings := by
    rw [TypeRef.isPrimitive_iff hid hname, hp]
    exact fun h => Bool.false_ne_true h.2
  have hunit : type.IsNonNull strings ClassName.unit ↔
      type.nullable = false ∧ name = ClassName.unit := TypeRef.isNonNull_iff hid hname
  split
  · rename_i hvoid
    simp only [Bool.and_eq_true, decide_eq_true_eq, Bool.not_eq_true'] at hvoid
    obtain ⟨⟨hname, hposition⟩, hnull⟩ := hvoid
    refine ⟨.void, ⟨?_, .inr rfl, ?_, ?_⟩, rfl⟩
    · rintro _ ⟨⟩
    · exact iff_of_true rfl ⟨hposition, hunit.mpr ⟨hnull, hname⟩⟩
    · exact iff_of_false (by decide) fun h => hnotPrimitive h.2
  · rename_i hvoid
    have hnotVoid : ¬ (position = .result ∧ type.IsNonNull strings ClassName.unit) := by
      rw [hunit]
      rintro ⟨hposition, hnull, hname⟩
      simp [hposition, hnull, hname] at hvoid
    split
    · rename_i element helement
      have hall : ∀ x ∈ ClassName.primitiveArrays,
          ∃ type ∈ JvmType.primitives, type.descriptor = x.2 := by decide
      obtain ⟨primitive, hprimitive, hdescriptor⟩ := hall _ (mem_of_lookup_eq_some helement)
      have hnames : ∀ name, primitive.array.className? = some name → P name := by
        intro name hclass
        rw [JvmType.className?, JvmType.className?_of_mem_primitives hprimitive] at hclass
        cases hclass
      exact ⟨primitive.array, .reference (.array (.primitive hprimitive))
        (JvmType.array_not_mem_primitives _) hnames hnotVoid fun h => hnotPrimitive h.2,
        by rw [JvmType.descriptor, hdescriptor]⟩
    · have hnames : ∀ name', some (ClassName.compiled name) = some name' → P name' := by
        rintro _ ⟨⟩
        exact hP.compiled h
      exact ⟨.object (ClassName.compiled name), .reference (.object (hP.closed (hP.compiled h)))
        (JvmType.object_not_mem_primitives _) hnames hnotVoid fun h => hnotPrimitive h.2, rfl⟩

/-- The class of arrays of references becomes an array, whatever its elements become. -/
theorem becomes_array (hid : type.classifier = .named id) (hname : strings.get id = .ok ClassName.array)
    {element : JvmType} (hfield : element.IsField)
    (hnames : ∀ name, element.className? = some name → P name) (position : TypePosition) :
    type.Becomes P strings position element.array := by
  have hnotUnit : ¬ type.IsNonNull strings ClassName.unit := by
    rw [TypeRef.isNonNull_iff hid hname]
    exact fun h => absurd h.2 (by decide)
  have hnotPrimitive : ¬ type.IsPrimitive strings := by
    rw [TypeRef.isPrimitive_iff hid hname]
    exact fun h => absurd h.2 (by decide)
  exact .reference (.array hfield) (JvmType.array_not_mem_primitives _) hnames
    (fun h => hnotUnit h.2) fun h => hnotPrimitive h.2

/-- Whether all class names in the bounds of the type parameters in scope have a property. -/
def BoundsOnly (P : String → Prop) (scope : Scope) : Prop :=
  ∀ param ∈ scope.typeParameters, ∀ bound ∈ param.upperBounds, bound.NamesOnly P scope.strings

theorem namesOnly_elementType? {element : TypeRef} (h : type.NamesOnly P scope.strings)
    (helement : elementType? type = some element) : element.NamesOnly P scope.strings := by
  intro id name hid
  obtain ⟨p, hp, hargument⟩ := Option.bind_eq_some_iff.mp helement
  exact h id name (.argument (List.mem_of_mem_head? hp) hargument hid)

/-- A type is encoded as the descriptor of what it becomes. -/
theorem exists_becomes_of_encodeWithin (hP : ClassName.Lasts P) (hscope : scope.BoundsOnly P)
    {bounds : Nat} {position : TypePosition} {text : String} (htype : type.NamesOnly P scope.strings)
    (h : scope.encodeWithin bounds type position = .ok text) :
    ∃ result, type.Becomes P scope.strings position result ∧ result.descriptor = text := by
  have hobject : ∀ name, some "java/lang/Object" = some name → P name := by
    rintro _ ⟨⟩
    exact hP.library List.mem_cons_self
  have hfield : (JvmType.object "java/lang/Object").IsField := .object (by decide)
  fun_induction Scope.encodeWithin scope bounds type position generalizing text with
  | case1 => cases h
  | case2 type position id hid param hparam bounds bound rest hbounds ih =>
    have hparam : param ∈ scope.typeParameters := List.mem_of_find?_eq_some hparam
    obtain ⟨result, hbound, hdescriptor⟩ :=
      ih (hscope param hparam bound (hbounds ▸ List.mem_cons_self)) h
    exact ⟨result, .of_parameter hid (hbound.isField (by decide)) hbound.not_mem_primitives
      fun _ => hbound.names, hdescriptor⟩
  | case3 bounds type position id hid =>
    obtain rfl := Except.ok.inj h
    exact ⟨.object "java/lang/Object", .of_parameter hid hfield
      (JvmType.object_not_mem_primitives _) hobject, rfl⟩
  | case4 => cases h
  | case5 bounds type position id hid element helement hlt elementText htext hname ih =>
    obtain rfl := Except.ok.inj h
    obtain ⟨result, hresult, rfl⟩ := ih (namesOnly_elementType? htype helement) htext
    exact ⟨result.array, becomes_array hid hname (hresult.isField (by decide))
      (fun _ => hresult.names) position, rfl⟩
  | case6 => cases h
  | case7 bounds type position id hid hnone hname =>
    obtain rfl := Except.ok.inj h
    exact ⟨.array (.object "java/lang/Object"), becomes_array hid hname hfield hobject position, rfl⟩
  | case8 bounds type position id hid name hname =>
    obtain rfl := Except.ok.inj h
    exact exists_becomes_class hP hid hname (htype id name (.itself hid) hname) position

/-- The scope inside of a declaration whose bounds have the property too. -/
theorem BoundsOnly.enter (h : scope.BoundsOnly P) {params : List TypeParameterDescriptor}
    (hparams : ∀ p ∈ params, ∀ bound ∈ p.upperBounds, bound.NamesOnly P scope.strings) :
    (scope.enter params).BoundsOnly P := by
  intro p hp
  rcases List.mem_append.mp hp with hp | hp
  · exact hparams p (List.mem_reverse.mp hp)
  · exact h p hp

/-- Value parameters are encoded one after the other. -/
theorem encodeParameters_ok {params : List ParameterDescriptor} {text : String}
    (h : scope.encodeParameters params = .ok text) :
    ∃ texts, List.Forall₂ (fun type text => scope.encode type .value = .ok text)
      (params.map ParameterDescriptor.type) texts ∧ text = String.join texts := by
  obtain ⟨texts, htexts, h⟩ := Except.bind_eq_ok_iff.mp h
  obtain rfl := Except.ok.inj h
  exact ⟨texts, List.forall₂_map_left_iff.mpr (Except.forall₂_of_mapM htexts), rfl⟩

end Scope

/-- The types that the signature of a function is computed from. -/
def FunctionDescriptor.types (f : FunctionDescriptor) : List TypeRef :=
  f.typeParameters.flatMap TypeParameterDescriptor.upperBounds ++ f.receiver.toList ++
    f.valueParameters.map ParameterDescriptor.type ++ [f.returnType]

/-- The source types of the receiver and the value parameters of a function. -/
def FunctionDescriptor.parameterTypes (f : FunctionDescriptor) : List TypeRef :=
  f.receiver.toList ++ f.valueParameters.map ParameterDescriptor.type

/-- What a suspending function takes after its value parameters. -/
def FunctionDescriptor.continuation (f : FunctionDescriptor) : List JvmType :=
  if f.isSuspending then [.object "kotlin/coroutines/Continuation"] else []

theorem FunctionDescriptor.eq_of_mem_continuation {f : FunctionDescriptor} {type : JvmType}
    (h : type ∈ f.continuation) : type = .object "kotlin/coroutines/Continuation" := by
  unfold continuation at h
  split at h
  · exact List.mem_singleton.mp h
  · cases h

theorem FunctionDescriptor.length_parameterTypes (f : FunctionDescriptor) :
    f.parameterTypes.length = f.receiver.isSome.toNat + f.valueParameters.length := by
  cases hreceiver : f.receiver <;> simp [parameterTypes, hreceiver, Nat.add_comm]

theorem FunctionDescriptor.length_continuation (f : FunctionDescriptor) :
    f.continuation.length = f.isSuspending.toNat := by
  unfold continuation
  cases f.isSuspending <;> rfl

theorem FunctionDescriptor.forall_mem_types {f : FunctionDescriptor} {P : TypeRef → Prop} :
    (∀ type ∈ f.types, P type) ↔
      (∀ p ∈ f.typeParameters, ∀ bound ∈ p.upperBounds, P bound) ∧
        (∀ type ∈ f.parameterTypes, P type) ∧ P f.returnType := by
  simp only [types, parameterTypes, List.append_assoc, List.forall_mem_append,
    List.forall_mem_flatMap, List.forall_mem_singleton]
  exact and_congr_right fun _ => and_assoc.symm

namespace Scope

variable {P : String → Prop} {scope : Scope} {f : FunctionDescriptor} {signature : String}

/-- The descriptor of a receiver, where there is one. -/
private def encodeReceiver (scope : Scope) : Option TypeRef → Except MetadataError String
  | some type => scope.encode type .value
  | none => .ok ""

private theorem encodeReceiver_ok {receiver : Option TypeRef} {text : String}
    (h : scope.encodeReceiver receiver = .ok text) :
    ∃ texts, List.Forall₂ (fun type text => scope.encode type .value = .ok text) receiver.toList
      texts ∧ text = String.join texts := by
  cases receiver with
  | none =>
    obtain rfl := Except.ok.inj h
    exact ⟨[], .nil, rfl⟩
  | some type => exact ⟨[text], .cons h .nil, by simp⟩

private theorem functionSignature_eq (unrecorded : f.signature = none) :
    scope.functionSignature f = do
      let inner := scope.enter f.typeParameters
      let name ← scope.strings.get f.name
      let receiver ← inner.encodeReceiver f.receiver
      let params ← inner.encodeParameters f.valueParameters
      if f.isSuspending then
        return name ++ "(" ++ receiver ++ params ++ continuationDescriptor ++ ")" ++ objectDescriptor
      else
        let result ← inner.encode f.returnType .result
        return name ++ "(" ++ receiver ++ params ++ ")" ++ result := by
  unfold functionSignature
  rw [unrecorded]
  cases f.receiver <;> rfl

/-- A computed signature has the encoded types of the receiver and the value parameters, and that of a
continuation where the function is suspending. -/
theorem exists_texts_of_functionSignature (unrecorded : f.signature = none)
    (h : scope.functionSignature f = .ok signature) :
    ∃ name texts result, scope.strings.get f.name = .ok name ∧
      List.Forall₂
        (fun type text => (scope.enter f.typeParameters).encode type .value = .ok text)
        f.parameterTypes texts ∧
      (f.isSuspending = true → result = objectDescriptor) ∧
      (f.isSuspending = false →
        (scope.enter f.typeParameters).encode f.returnType .result = .ok result) ∧
      signature = name ++ "(" ++
        String.join (texts ++ f.continuation.map JvmType.descriptor) ++ ")" ++ result := by
  rw [functionSignature_eq unrecorded] at h
  obtain ⟨name, hname, h⟩ := Except.bind_eq_ok_iff.mp h
  obtain ⟨_, hreceiver, h⟩ := Except.bind_eq_ok_iff.mp h
  obtain ⟨_, hparams, h⟩ := Except.bind_eq_ok_iff.mp h
  obtain ⟨receivers, hreceivers, rfl⟩ := encodeReceiver_ok hreceiver
  obtain ⟨values, hvalues, rfl⟩ := encodeParameters_ok hparams
  have htexts := List.rel_append hreceivers hvalues
  cases hsuspending : f.isSuspending with
  | true =>
    rw [hsuspending, if_pos rfl] at h
    obtain rfl := Except.ok.inj h
    refine ⟨name, receivers ++ values, objectDescriptor, hname, htexts, fun _ => rfl, nofun, ?_⟩
    have hcontinuation :
        f.continuation.map JvmType.descriptor = [continuationDescriptor] := by
      rw [FunctionDescriptor.continuation, hsuspending]
      rfl
    simp [hcontinuation, String.append_assoc]
  | false =>
    rw [hsuspending, if_neg Bool.false_ne_true] at h
    obtain ⟨result, hresult, h⟩ := Except.bind_eq_ok_iff.mp h
    obtain rfl := Except.ok.inj h
    refine ⟨name, receivers ++ values, result, hname, htexts, nofun, fun _ => hresult, ?_⟩
    have hcontinuation : f.continuation.map JvmType.descriptor = [] := by
      rw [FunctionDescriptor.continuation, hsuspending]
      rfl
    simp [hcontinuation, String.append_assoc]

/-- Types that are encoded one after the other are the descriptors of what they become. -/
theorem exists_becomes_of_forall₂ (hP : ClassName.Lasts P) (hscope : scope.BoundsOnly P)
    {types : List TypeRef} {texts : List String}
    (htypes : ∀ type ∈ types, type.NamesOnly P scope.strings)
    (h : List.Forall₂ (fun type text => scope.encode type .value = .ok text) types texts) :
    ∃ values : List JvmType,
      List.Forall₂ (fun type value => type.Becomes P scope.strings .value value ∧
        scope.encode type .value = .ok value.descriptor) types values ∧
      values.map JvmType.descriptor = texts := by
  induction h with
  | nil => exact ⟨[], .nil, rfl⟩
  | cons hencode _ ih =>
    obtain ⟨htype, htypes⟩ := List.forall_mem_cons.mp htypes
    obtain ⟨value, hvalue, rfl⟩ := exists_becomes_of_encodeWithin hP hscope htype hencode
    obtain ⟨values, hvalues, rfl⟩ := ih htypes
    exact ⟨value :: values, .cons ⟨hvalue, hencode⟩ hvalues, rfl⟩

/-- Whether a signature is computed from what the types of a function become. -/
structure Computes (P : String → Prop) (scope : Scope) (f : FunctionDescriptor)
    (signature name : String) (values : List JvmType) (result : JvmType) : Prop where
  name_eq : scope.strings.get f.name = .ok name
  signature_eq : signature = name ++ JvmType.methodDescriptor (values ++ f.continuation) result
  values : List.Forall₂
    (fun type value => type.Becomes P scope.strings .value value ∧
      (scope.enter f.typeParameters).encode type .value = .ok value.descriptor)
    f.parameterTypes values
  /-- A suspending function may return any object. -/
  suspending : f.isSuspending = true → result = .object "java/lang/Object"
  result : f.isSuspending = false → f.returnType.Becomes P scope.strings .result result ∧
    (scope.enter f.typeParameters).encode f.returnType .result = .ok result.descriptor

/-- Every signature that is not recorded is computed. -/
theorem exists_computes (hP : ClassName.Lasts P) (hscope : scope.BoundsOnly P)
    (htypes : ∀ type ∈ f.types, type.NamesOnly P scope.strings) (unrecorded : f.signature = none)
    (h : scope.functionSignature f = .ok signature) :
    ∃ name values result, scope.Computes P f signature name values result := by
  obtain ⟨hbounds, hparameters, hreturn⟩ := FunctionDescriptor.forall_mem_types.mp htypes
  have hinner : (scope.enter f.typeParameters).BoundsOnly P := hscope.enter hbounds
  obtain ⟨name, texts, text, hname, htexts, hsuspending, hplain, rfl⟩ :=
    exists_texts_of_functionSignature unrecorded h
  obtain ⟨values, hvalues, rfl⟩ := exists_becomes_of_forall₂ hP hinner hparameters htexts
  have hsignature (result : JvmType) (hresult : result.descriptor = text) :
      name ++ "(" ++ String.join
        (values.map JvmType.descriptor ++ f.continuation.map JvmType.descriptor) ++ ")" ++ text =
      name ++ JvmType.methodDescriptor (values ++ f.continuation) result := by
    simp only [JvmType.methodDescriptor, List.map_append, hresult, String.append_assoc]
  cases hcase : f.isSuspending with
  | true =>
    have hresult : (JvmType.object "java/lang/Object").descriptor = text :=
      (hsuspending hcase).symm
    refine ⟨name, values, .object "java/lang/Object", hname, hsignature _ hresult, hvalues,
      fun _ => rfl, fun h => ?_⟩
    rw [hcase] at h
    cases h
  | false =>
    obtain ⟨result, hbecomes, hresult⟩ :=
      exists_becomes_of_encodeWithin hP hinner hreturn (hplain hcase)
    refine ⟨name, values, result, hname, hsignature _ hresult, hvalues, fun h => ?_, fun _ => ?_⟩
    · rw [hcase] at h
      cases h
    · exact ⟨hbecomes, hresult ▸ hplain hcase⟩

namespace Computes

variable {name : String} {values : List JvmType} {result : JvmType}

theorem length (h : scope.Computes P f signature name values result) :
    (values ++ f.continuation).length =
      f.receiver.isSome.toNat + f.valueParameters.length + f.isSuspending.toNat := by
  rw [List.length_append, ← h.values.length_eq, f.length_parameterTypes, f.length_continuation]

theorem isField (h : scope.Computes P f signature name values result) {value : JvmType}
    (hvalue : value ∈ values ++ f.continuation) : value.IsField := by
  rcases List.mem_append.mp hvalue with hvalue | hvalue
  · obtain ⟨type, -, hbecomes, -⟩ := exists_of_mem_forall₂ h.values hvalue
    exact hbecomes.isField (by decide)
  · rw [FunctionDescriptor.eq_of_mem_continuation hvalue]
    exact .object (by decide)

theorem isResult (h : scope.Computes P f signature name values result) : result.IsResult := by
  cases hcase : f.isSuspending with
  | true =>
    rw [h.suspending hcase]
    exact .inl (.object (by decide))
  | false => exact (h.result hcase).1.isResult

/-- The names in the types of the parameters keep the property. -/
theorem names (h : scope.Computes P f signature name values result) (hP : ClassName.Lasts P)
    {value : JvmType} (hvalue : value ∈ values ++ f.continuation) {className : String}
    (hclass : value.className? = some className) : P className := by
  rcases List.mem_append.mp hvalue with hvalue | hvalue
  · obtain ⟨type, -, hbecomes, -⟩ := exists_of_mem_forall₂ h.values hvalue
    exact hbecomes.names hclass
  · rw [FunctionDescriptor.eq_of_mem_continuation hvalue] at hclass
    obtain rfl := Option.some.inj hclass
    exact hP.library (List.mem_cons_of_mem _ List.mem_cons_self)

/-- The name in the type of the result keeps the property. -/
theorem resultNames (h : scope.Computes P f signature name values result) (hP : ClassName.Lasts P)
    {className : String} (hclass : result.className? = some className) : P className := by
  cases hcase : f.isSuspending with
  | true =>
    rw [h.suspending hcase] at hclass
    obtain rfl := Option.some.inj hclass
    exact hP.library List.mem_cons_self
  | false => exact (h.result hcase).1.names hclass

end Computes

/-- A computed signature is the name of the function and a method descriptor. This one has a type for the
receiver, one for each value parameter and one for the continuation, in this order. Those of the
receiver and the value parameters are primitive exactly if the source types are primitive classes that
exclude null. A suspending function has any object as result, and another one has no result exactly if
its source type is the unit class without null. -/
theorem ofMethodDescriptor_functionSignature (hscope : scope.BoundsOnly ClassName.IsClosed)
    (htypes : ∀ type ∈ f.types, type.NamesOnly ClassName.IsClosed scope.strings)
    (unrecorded : f.signature = none) (h : scope.functionSignature f = .ok signature) :
    ∃ name method values parameters result,
      scope.strings.get f.name = .ok name ∧ signature = name ++ method ∧
      JvmType.ofMethodDescriptor method = .ok (parameters, result) ∧
      parameters.length =
        f.receiver.isSome.toNat + f.valueParameters.length + f.isSuspending.toNat ∧
      parameters = values ++
        (if f.isSuspending then [.object "kotlin/coroutines/Continuation"] else []) ∧
      List.Forall₂
        (fun type value =>
          (scope.enter f.typeParameters).encode type .value = .ok value.descriptor ∧
          (value ∈ JvmType.primitives ↔ type.IsPrimitive scope.strings))
        (f.receiver.toList ++ f.valueParameters.map ParameterDescriptor.type) values ∧
      (f.isSuspending = true → result = .object "java/lang/Object") ∧
      (f.isSuspending = false →
        (scope.enter f.typeParameters).encode f.returnType .result = .ok result.descriptor ∧
        (result = .void ↔ f.returnType.IsNonNull scope.strings ClassName.unit)) := by
  obtain ⟨name, values, result, hcomputes⟩ :=
    exists_computes ClassName.lasts_isClosed hscope htypes unrecorded h
  have hread := JvmType.ofMethodDescriptor_eq_ok_iff.mpr
    ⟨fun _ => hcomputes.isField, hcomputes.isResult, rfl⟩
  refine ⟨name, _, values, values ++ f.continuation, result, hcomputes.name_eq,
    hcomputes.signature_eq, hread, hcomputes.length, rfl, ?_, hcomputes.suspending, ?_⟩
  · refine hcomputes.values.imp fun type value h => ⟨h.2, ?_⟩
    exact h.1.primitive_iff.trans (and_iff_right (by decide))
  · intro hcase
    obtain ⟨hbecomes, hencode⟩ := hcomputes.result hcase
    exact ⟨hencode, hbecomes.void_iff.trans (and_iff_right rfl)⟩

end Scope

/-- The scope inside of a class whose type parameter is bounded by numbers. -/
def Scope.bounded : Scope where
  strings := ⟨⟨["put", "kotlin/Int", "kotlin/Unit", "T", "x", "y"]⟩⟩
  typeParameters := [{ id := 0, name := ⟨3⟩, upperBounds := [.named ⟨1⟩] }]

/-- A function that extends the type parameter and takes two numbers, of which one may be null. -/
def FunctionDescriptor.extension : FunctionDescriptor where
  name := ⟨0⟩
  receiver := some (.typeParameter 0)
  valueParameters := [
    { name := ⟨4⟩, type := .named ⟨1⟩ },
    { name := ⟨5⟩, type := (TypeRef.named ⟨1⟩).orNull }]
  returnType := .named ⟨2⟩

theorem Scope.functionSignature_extension :
    bounded.functionSignature .extension =
      .ok "put(Ljava/lang/Integer;ILjava/lang/Integer;)V" := by
  have hreceiver : bounded.encode (.typeParameter 0) .value = .ok "Ljava/lang/Integer;" := by cbv
  have hint : bounded.encode (.named ⟨1⟩) .value = .ok "I" := by cbv
  have hboxed : bounded.encode (TypeRef.named ⟨1⟩).orNull .value = .ok "Ljava/lang/Integer;" := by cbv
  have hresult : bounded.encode (.named ⟨2⟩) .result = .ok "V" := by cbv
  have henter : bounded.enter [] = bounded := rfl
  simp only [functionSignature, FunctionDescriptor.extension, encodeParameters, henter, List.mapM_cons,
    List.mapM_nil, hreceiver, hint, hboxed, hresult]
  rfl

/-- The signature of the function is read back as three types, of which only the number that excludes
null is primitive, and no result. -/
theorem Scope.ofMethodDescriptor_extension :
    ∃ parameters,
      JvmType.ofMethodDescriptor "(Ljava/lang/Integer;ILjava/lang/Integer;)V" =
        .ok (parameters, .void) ∧
      List.Forall₂
        (fun type value => value ∈ JvmType.primitives ↔ type.IsPrimitive bounded.strings)
        [.typeParameter 0, .named ⟨1⟩, (TypeRef.named ⟨1⟩).orNull] parameters := by
  have hnames : ∀ text ∈ bounded.strings.toList, ClassName.IsClosed text := by decide
  obtain ⟨name, method, values, parameters, result, hname, hsignature, hread, -, hvalues, htypes, -,
    hresult⟩ := bounded.ofMethodDescriptor_functionSignature
      (fun _ _ bound _ => TypeRef.namesOnly_of_forall hnames bound)
      (fun type _ => TypeRef.namesOnly_of_forall hnames type) rfl functionSignature_extension
  have hname' : bounded.strings.get FunctionDescriptor.extension.name = .ok "put" := rfl
  obtain rfl := Except.ok.inj (hname'.symm.trans hname)
  have hsplit : "put(Ljava/lang/Integer;ILjava/lang/Integer;)V" =
      "put" ++ "(Ljava/lang/Integer;ILjava/lang/Integer;)V" := rfl
  obtain rfl := (String.append_right_inj "put").mp (hsplit.symm.trans hsignature)
  have hunit : FunctionDescriptor.extension.returnType.IsNonNull bounded.strings ClassName.unit :=
    ⟨rfl, ⟨2⟩, rfl, rfl⟩
  obtain rfl := (hresult rfl).2.mpr hunit
  obtain rfl : parameters = values := hvalues.trans (List.append_nil values)
  exact ⟨parameters, hread, htypes.imp fun _ _ h => h.2⟩

end Correspondence
