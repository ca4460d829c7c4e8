import Correspondence.Proofs.Grammar
import Correspondence.Signature.Source

/-!
# The start of enum constructors

The two parameters that come first in every enum constructor are cut off as a text. No descriptor goes
on where they end, so this leaves out exactly two parameters, and nothing else if the signature is
computed.
-/

namespace Correspondence

variable {owner signature text : String}

theorem stripEnumConstructorStart_eq_ok_iff :
    stripEnumConstructorStart owner signature = .ok text ↔
      ∃ rest, signature = constructorName ++ "(" ++ enumConstructorStart ++ rest ∧
        text = constructorName ++ "(" ++ rest := by
  have hstrip (rest : List Char) :
      Text.stripStart? (constructorName ++ "(" ++ enumConstructorStart).toList signature.toList =
          some rest ↔
        signature = constructorName ++ "(" ++ enumConstructorStart ++ String.ofList rest := by
    have htext (start : String) : (start ++ String.ofList rest).toList = start.toList ++ rest := by
      rw [String.toList_append, String.toList_ofList]
    rw [Text.stripStart?_eq_some_iff, ← String.toList_inj, htext]
  unfold stripEnumConstructorStart
  split
  · rename_i rest hrest
    constructor
    · intro h
      exact ⟨String.ofList rest, (hstrip rest).mp hrest, (Except.ok.inj h).symm⟩
    · rintro ⟨rest', hsignature, rfl⟩
      rw [(String.append_right_inj _).mp (((hstrip rest).mp hrest).symm.trans hsignature)]
  · rename_i hnone
    constructor
    · rintro ⟨⟩
    · rintro ⟨rest, hsignature, -⟩
      rw [(hstrip rest.toList).mpr (by rwa [String.ofList_toList])] at hnone
      cases hnone

theorem stripEnumConstructorStart_append (owner rest : String) :
    stripEnumConstructorStart owner (constructorName ++ "(" ++ enumConstructorStart ++ rest) =
      .ok (constructorName ++ "(" ++ rest) :=
  stripEnumConstructorStart_eq_ok_iff.mpr ⟨rest, rfl, rfl⟩

/-- A computed signature does not depend on whether the class is an enum. -/
theorem Scope.constructorSignature_of_unrecorded (scope : Scope) (owner : String)
    {c : ConstructorDescriptor} (unrecorded : c.signature = none) (isEnum : Bool) :
    scope.constructorSignature owner c isEnum = do
      let params ← (scope.encodeParameters c.valueParameters).mapError .metadata
      return constructorName ++ "(" ++ params ++ ")V" := by
  unfold constructorSignature
  rw [unrecorded]
  cases scope.encodeParameters c.valueParameters with
  | error e => rfl
  | ok params =>
    have hend (start : String) : start ++ params ++ ")V" = start ++ (params ++ ")V") :=
      String.append_assoc
    cases isEnum with
    | false =>
      change Except.ok (constructorName ++ "(" ++ "" ++ params ++ ")V") = _
      rw [String.append_empty]
      rfl
    | true =>
      change stripEnumConstructorStart owner
        (constructorName ++ "(" ++ enumConstructorStart ++ params ++ ")V") = _
      rw [hend, stripEnumConstructorStart_append, ← hend]
      rfl

namespace JvmType

variable {parameters : List JvmType} {result : JvmType}

/-- The types of the parameters that come first in every enum constructor. -/
def enumStart : List JvmType :=
  [.object "java/lang/String", .int]

theorem methodDescriptor_enumStart_append (parameters : List JvmType) (result : JvmType) :
    constructorName ++ methodDescriptor (enumStart ++ parameters) result =
      constructorName ++ "(" ++ enumConstructorStart ++
        (String.join (parameters.map descriptor) ++ ")" ++ result.descriptor) := by
  have hstart : enumConstructorStart = String.join (enumStart.map descriptor) := by decide
  simp [methodDescriptor, hstart, String.append_assoc]

/-- A signature that starts as that of an enum constructor does has the two parameters first. -/
theorem exists_eq_enumStart_append {text : String} (hfields : ∀ p ∈ parameters, p.IsField)
    (h : constructorName ++ methodDescriptor parameters result =
      constructorName ++ "(" ++ enumConstructorStart ++ text) :
    ∃ rest, parameters = enumStart ++ rest := by
  have hname : (object "java/lang/String").IsField := .object (by decide)
  have hordinal : int.IsField := .primitive (by decide)
  have hstart : enumConstructorStart.toList =
      (object "java/lang/String").descriptor.toList ++ int.descriptor.toList := by decide
  have htext : (String.join (parameters.map descriptor)).toList ++ ')' :: result.descriptor.toList =
      (object "java/lang/String").descriptor.toList ++
        (int.descriptor.toList ++ text.toList) := by
    have htext := congrArg String.toList h
    simpa [constructorName, methodDescriptor, hstart] using htext
  have hread := Descriptor.readParameters_append hfields result.descriptor.toList
  rw [htext] at hread
  obtain ⟨_, rfl, hrest⟩ := Descriptor.exists_cons_of_readParameters hname hread
  obtain ⟨rest, rfl, -⟩ := Descriptor.exists_cons_of_readParameters hordinal hrest
  exact ⟨rest, rfl⟩

end JvmType

/-- The constructor signature of a method descriptor starts as that of an enum constructor does exactly if
the first two parameters are a string and a number. These two are left out then, and nothing else is. A
computed signature does not depend on whether the class is an enum. -/
theorem stripEnumConstructorStart_iff_constructorSignature_eq :
    (∀ (owner method : String) (parameters : List JvmType) (result : JvmType),
      JvmType.ofMethodDescriptor method = .ok (parameters, result) →
      ((∃ text, stripEnumConstructorStart owner (constructorName ++ method) = .ok text) ↔
        ∃ rest, parameters = .object "java/lang/String" :: .int :: rest) ∧
      ∀ rest, parameters = .object "java/lang/String" :: .int :: rest →
        ∃ method', stripEnumConstructorStart owner (constructorName ++ method) =
            .ok (constructorName ++ method') ∧
          JvmType.ofMethodDescriptor method' = .ok (rest, result)) ∧
    ∀ (scope : Scope) (owner : String) (c : ConstructorDescriptor), c.signature = none →
      scope.constructorSignature owner c true = scope.constructorSignature owner c false := by
  refine ⟨fun owner method parameters result h => ?_, fun scope owner c unrecorded => ?_⟩
  · obtain ⟨hfields, hresult, rfl⟩ := JvmType.ofMethodDescriptor_eq_ok_iff.mp h
    have hstrip (rest : List JvmType) : stripEnumConstructorStart owner
        (constructorName ++ JvmType.methodDescriptor (JvmType.enumStart ++ rest) result) =
          .ok (constructorName ++ JvmType.methodDescriptor rest result) := by
      rw [JvmType.methodDescriptor_enumStart_append, stripEnumConstructorStart_append]
      simp [JvmType.methodDescriptor, String.append_assoc]
    refine ⟨⟨?_, ?_⟩, ?_⟩
    · rintro ⟨text, htext⟩
      obtain ⟨rest, hrest, -⟩ := stripEnumConstructorStart_eq_ok_iff.mp htext
      exact JvmType.exists_eq_enumStart_append hfields hrest
    · rintro ⟨rest, rfl⟩
      exact ⟨_, hstrip rest⟩
    · rintro rest rfl
      refine ⟨_, hstrip rest, JvmType.ofMethodDescriptor_eq_ok_iff.mpr ⟨?_, hresult, rfl⟩⟩
      exact fun p hp => hfields p (List.mem_cons_of_mem _ (List.mem_cons_of_mem _ hp))
  · rw [scope.constructorSignature_of_unrecorded owner unrecorded,
      scope.constructorSignature_of_unrecorded owner unrecorded]

/-- A constructor that takes a long number. -/
def ConstructorDescriptor.ofLong : ConstructorDescriptor where
  valueParameters := [{ name := ⟨0⟩, type := .named ⟨0⟩ }]

/-- The scope of the long numbers. -/
def Scope.longs : Scope where
  strings := ⟨⟨["kotlin/Long"]⟩⟩

/-- The two parameters are left out before a number, and not found where the second one is an array. -/
theorem stripEnumConstructorStart_ofLong :
    (∃ method, stripEnumConstructorStart "Color" "<init>(Ljava/lang/String;IJ)V" =
        .ok (constructorName ++ method) ∧
      JvmType.ofMethodDescriptor method = .ok ([.long], .void)) ∧
    (¬ ∃ text, stripEnumConstructorStart "Color" "<init>(Ljava/lang/String;[I)V" = .ok text) ∧
    Scope.longs.constructorSignature "Color" .ofLong true =
      Scope.longs.constructorSignature "Color" .ofLong false := by
  obtain ⟨hstrip, hcomputed⟩ := stripEnumConstructorStart_iff_constructorSignature_eq
  have hlong : JvmType.ofMethodDescriptor "(Ljava/lang/String;IJ)V" =
      .ok ([.object "java/lang/String", .int, .long], .void) := by cbv
  have harray : JvmType.ofMethodDescriptor "(Ljava/lang/String;[I)V" =
      .ok ([.object "java/lang/String", .array .int], .void) := by cbv
  refine ⟨(hstrip "Color" _ _ _ hlong).2 [.long] rfl, fun h => ?_, hcomputed _ _ _ rfl⟩
  obtain ⟨rest, hrest⟩ := (hstrip "Color" _ _ _ harray).1.mp h
  simp at hrest

end Correspondence
