import Correspondence.Jvm.Descriptor
import Correspondence.Proofs.Indexing

/-!
# The grammar of descriptors

Reading accepts exactly the descriptors of the types that a field may have, and of lists of such types
with a result. What is read is the type that the text describes, so no text has two readings.
-/

namespace Correspondence

namespace JvmType

/-- The primitive types. -/
def primitives : List JvmType :=
  [.boolean, .byte, .char, .short, .int, .long, .float, .double]

/-- Whether a field may have a type: it is primitive, a class whose name no semicolon cuts short, or an
array of such a type. -/
inductive IsField : JvmType → Prop
  | primitive {type : JvmType} (h : type ∈ primitives) : IsField type
  | object {name : String} (h : ';' ∉ name.toList) : IsField (.object name)
  | array {element : JvmType} (h : IsField element) : IsField (.array element)

/-- Whether a method may have a type as its result. -/
def IsResult (type : JvmType) : Prop :=
  type.IsField ∨ type = .void

/-- The descriptor of a method. -/
def methodDescriptor (parameters : List JvmType) (result : JvmType) : String :=
  "(" ++ String.join (parameters.map descriptor) ++ ")" ++ result.descriptor

end JvmType

namespace Descriptor

open JvmType

variable {type : JvmType} {text rest : List Char}

/-- The descriptor of a field type is read, whatever follows it. -/
theorem readType_append (h : type.IsField) (rest : List Char) :
    readType (type.descriptor.toList ++ rest) = .ok (type, rest) := by
  induction h with
  | primitive h =>
    simp only [primitives, List.mem_cons, List.not_mem_nil, or_false] at h
    rcases h with rfl | rfl | rfl | rfl | rfl | rfl | rfl | rfl <;> rfl
  | @object name h =>
    have htext : (JvmType.object name).descriptor.toList ++ rest =
        'L' :: (name.toList ++ ';' :: rest) := by
      simp [descriptor]
    have hcut : Text.cutFirst? ';' (name.toList ++ ';' :: rest) = some (name.toList, rest) :=
      Text.cutFirst?_eq_some_iff.mpr ⟨h, rfl⟩
    rw [htext, readType, hcut]
    simp only [String.ofList_toList]
  | @array element h ih =>
    have htext : element.array.descriptor.toList ++ rest =
        '[' :: (element.descriptor.toList ++ rest) := by
      simp [descriptor]
    rw [htext, readType, ih]

/-- What is read is the descriptor of a field type. -/
theorem eq_append_of_readType (h : readType text = .ok (type, rest)) :
    type.IsField ∧ text = type.descriptor.toList ++ rest := by
  fun_induction readType text generalizing type with
  | case1 => cases h
  | case10 text element rest' heq ih =>
    obtain ⟨rfl, rfl⟩ := Prod.mk.inj (Except.ok.inj h)
    obtain ⟨hfield, rfl⟩ := ih heq
    exact ⟨.array hfield, by simp [descriptor]⟩
  | case11 => cases h
  | case12 text name rest' heq =>
    obtain ⟨rfl, rfl⟩ := Prod.mk.inj (Except.ok.inj h)
    obtain ⟨hname, rfl⟩ := Text.cutFirst?_eq_some_iff.mp heq
    exact ⟨.object (by simpa using hname), by simp [descriptor]⟩
  | case13 => cases h
  | case14 => cases h
  | _ =>
    obtain ⟨rfl, rfl⟩ := Prod.mk.inj (Except.ok.inj h)
    exact ⟨.primitive (by decide), rfl⟩

theorem readType_eq_ok_iff :
    readType text = .ok (type, rest) ↔ type.IsField ∧ text = type.descriptor.toList ++ rest := by
  constructor
  · exact eq_append_of_readType
  · rintro ⟨h, rfl⟩
    exact readType_append h rest

/-- After a type, reading the parameters goes on with what follows it. -/
theorem readParameters_of_readType (h : readType text = .ok (type, rest)) :
    readParameters text =
      match readParameters rest with
      | .error fault => .error fault
      | .ok (types, rest) => .ok (type :: types, rest) := by
  rw [readParameters.eq_def]
  split
  · cases h
  · cases h
  · split
    · rename_i hread
      cases hread.symm.trans h
    · rename_i hread
      obtain ⟨rfl, rfl⟩ := Prod.mk.inj (Except.ok.inj (hread.symm.trans h))
      rfl

/-- Where the parameters start with a type, that type is the first of them. -/
theorem exists_cons_of_readParameters {types : List JvmType} (htype : type.IsField)
    (h : readParameters (type.descriptor.toList ++ text) = .ok (types, rest)) :
    ∃ types', types = type :: types' ∧ readParameters text = .ok (types', rest) := by
  rw [readParameters_of_readType (readType_append htype text)] at h
  cases hread : readParameters text with
  | error fault =>
    rw [hread] at h
    cases h
  | ok read =>
    rw [hread] at h
    obtain ⟨rfl, rfl⟩ := Prod.mk.inj (Except.ok.inj h)
    exact ⟨read.1, rfl, rfl⟩

private theorem toList_join_cons (type : JvmType) (types : List JvmType) :
    (String.join ((type :: types).map descriptor)).toList =
      type.descriptor.toList ++ (String.join (types.map descriptor)).toList := by
  simp

/-- Descriptors one after the other are read up to the closing parenthesis. -/
theorem readParameters_append {types : List JvmType} (h : ∀ t ∈ types, t.IsField)
    (rest : List Char) :
    readParameters ((String.join (types.map descriptor)).toList ++ ')' :: rest) =
      .ok (types, rest) := by
  induction types with
  | nil =>
    change readParameters (')' :: rest) = _
    rw [readParameters]
  | cons type types ih =>
    obtain ⟨htype, htypes⟩ := List.forall_mem_cons.mp h
    rw [toList_join_cons, List.append_assoc,
      readParameters_of_readType (readType_append htype _), ih htypes]

/-- The parameters that are read are the descriptors of field types, one after the other. -/
theorem eq_append_of_readParameters {types : List JvmType}
    (h : readParameters text = .ok (types, rest)) :
    (∀ t ∈ types, t.IsField) ∧
      text = (String.join (types.map descriptor)).toList ++ ')' :: rest := by
  fun_induction readParameters text generalizing types with
  | case1 => cases h
  | case2 =>
    obtain ⟨rfl, rfl⟩ := Prod.mk.inj (Except.ok.inj h)
    exact ⟨by simp, rfl⟩
  | case3 => cases h
  | case4 => cases h
  | case5 c text hc type rest' hread hlt types' rest'' hrest ih =>
    obtain ⟨rfl, rfl⟩ := Prod.mk.inj (Except.ok.inj h)
    obtain ⟨htype, htext⟩ := eq_append_of_readType hread
    obtain ⟨htypes, rfl⟩ := ih hrest
    refine ⟨List.forall_mem_cons.mpr ⟨htype, htypes⟩, ?_⟩
    rw [htext, toList_join_cons, List.append_assoc]

theorem readParameters_eq_ok_iff {types : List JvmType} :
    readParameters text = .ok (types, rest) ↔
      (∀ t ∈ types, t.IsField) ∧
        text = (String.join (types.map descriptor)).toList ++ ')' :: rest := by
  constructor
  · exact eq_append_of_readParameters
  · rintro ⟨h, rfl⟩
    exact readParameters_append h rest

theorem readResult_eq_ok_iff :
    readResult text = .ok (type, rest) ↔
      type.IsResult ∧ text = type.descriptor.toList ++ rest := by
  unfold readResult
  split
  · rename_i rest'
    constructor
    · intro h
      obtain ⟨rfl, rfl⟩ := Prod.mk.inj (Except.ok.inj h)
      exact ⟨.inr rfl, rfl⟩
    · rintro ⟨hfield | rfl, htext⟩
      · -- No field type is described by `V`.
        have hread : readType ('V' :: rest') = .ok (type, rest) :=
          readType_eq_ok_iff.mpr ⟨hfield, htext⟩
        cases hread
      · obtain ⟨-, rfl⟩ := List.cons.inj htext
        rfl
  · rename_i hvoid
    rw [readType_eq_ok_iff]
    constructor
    · exact fun ⟨hfield, htext⟩ => ⟨.inl hfield, htext⟩
    · rintro ⟨hfield | rfl, htext⟩
      · exact ⟨hfield, htext⟩
      · exact absurd htext (hvoid rest)

/-- A text is read as a whole if nothing is left of it. -/
theorem readWhole_eq_ok_iff :
    readWhole text = .ok type ↔ type.IsField ∧ text = type.descriptor.toList := by
  have hread : readWhole text = .ok type ↔ readType text = .ok (type, []) := by
    unfold readWhole
    split
    · rename_i fault heq
      simp only [heq, reduceCtorEq]
    · rename_i type' heq
      simp only [heq, Except.ok.injEq, Prod.mk.injEq, and_true]
    · rename_i type' c rest heq
      simp only [heq, reduceCtorEq, Except.ok.injEq, Prod.mk.injEq, and_false]
  rw [hread, readType_eq_ok_iff, List.append_nil]

private theorem toList_methodDescriptor (types : List JvmType) (result : JvmType) :
    (methodDescriptor types result).toList =
      '(' :: ((String.join (types.map descriptor)).toList ++ ')' :: result.descriptor.toList) := by
  simp [methodDescriptor]

theorem readMethod_eq_ok_iff {types : List JvmType} :
    readMethod text = .ok (types, type) ↔
      (∀ t ∈ types, t.IsField) ∧ type.IsResult ∧ text = (methodDescriptor types type).toList := by
  constructor
  · intro h
    unfold readMethod at h
    split at h
    · cases h
    · split at h
      · cases h
      · rename_i text types' rest hparameters
        split at h
        · cases h
        · rename_i result hread
          obtain ⟨rfl, rfl⟩ := Prod.mk.inj (Except.ok.inj h)
          obtain ⟨htypes, rfl⟩ := readParameters_eq_ok_iff.mp hparameters
          obtain ⟨hresult, rfl⟩ := readResult_eq_ok_iff.mp hread
          exact ⟨htypes, hresult, by rw [toList_methodDescriptor, List.append_nil]⟩
        · cases h
    · cases h
  · rintro ⟨htypes, hresult, rfl⟩
    have hrest : readResult type.descriptor.toList = .ok (type, []) :=
      readResult_eq_ok_iff.mpr ⟨hresult, (List.append_nil _).symm⟩
    rw [toList_methodDescriptor, readMethod, readParameters_append htypes]
    dsimp only
    rw [hrest]

end Descriptor

namespace JvmType

variable {text : String} {type result : JvmType} {parameters : List JvmType}

theorem ofDescriptor_eq_ok_iff :
    ofDescriptor text = .ok type ↔ type.IsField ∧ type.descriptor = text := by
  rw [ofDescriptor, Except.mapError_eq_ok_iff, Descriptor.readWhole_eq_ok_iff, String.toList_inj,
    eq_comm (a := text)]

theorem ofMethodDescriptor_eq_ok_iff :
    ofMethodDescriptor text = .ok (parameters, result) ↔
      (∀ p ∈ parameters, p.IsField) ∧ result.IsResult ∧
        methodDescriptor parameters result = text := by
  rw [ofMethodDescriptor, Except.mapError_eq_ok_iff, Descriptor.readMethod_eq_ok_iff,
    String.toList_inj, eq_comm (a := text)]

private theorem exists_fault_iff {α : Type} {x : Except DescriptorFault α} :
    (∃ fault, x.mapError (DescriptorError.mk text) = .error ⟨text, fault⟩) ↔
      ¬ ∃ a, x.mapError (DescriptorError.mk text) = .ok a := by
  cases x <;> simp [Except.mapError]

/-- A text is read as a type exactly if it is the descriptor of that type and a field may have the type.
It is read as the types of a method exactly if it is the descriptor of a method with field types as
parameters and a field type or no value as result. Any other text is an error that names the text. -/
theorem ofDescriptor_ofMethodDescriptor_iff (text : String) :
    (∀ type, ofDescriptor text = .ok type ↔ type.IsField ∧ type.descriptor = text) ∧
    (∀ parameters result, ofMethodDescriptor text = .ok (parameters, result) ↔
      (∀ p ∈ parameters, p.IsField) ∧ result.IsResult ∧
        methodDescriptor parameters result = text) ∧
    ((∃ fault, ofDescriptor text = .error ⟨text, fault⟩) ↔
      ¬ ∃ type : JvmType, type.IsField ∧ type.descriptor = text) ∧
    ((∃ fault, ofMethodDescriptor text = .error ⟨text, fault⟩) ↔
      ¬ ∃ (parameters : List JvmType) (result : JvmType), (∀ p ∈ parameters, p.IsField) ∧
        result.IsResult ∧ methodDescriptor parameters result = text) := by
  have hfault : (∃ fault, ofDescriptor text = .error ⟨text, fault⟩) ↔
      ¬ ∃ type, ofDescriptor text = .ok type := exists_fault_iff
  have hfault' : (∃ fault, ofMethodDescriptor text = .error ⟨text, fault⟩) ↔
      ¬ ∃ types, ofMethodDescriptor text = .ok types := exists_fault_iff
  refine ⟨fun _ => ofDescriptor_eq_ok_iff, fun _ _ => ofMethodDescriptor_eq_ok_iff, ?_, ?_⟩
  · simp only [hfault, ofDescriptor_eq_ok_iff]
  · simp only [hfault', Prod.exists, ofMethodDescriptor_eq_ok_iff]

end JvmType

end Correspondence
