import Correspondence.Proofs.Erasure

/-!
# Signatures as keys

All matching of members compares signatures. Two methods have the same signature exactly if they have
the same name and their types are the same when all type variables are replaced by their bounds, and two
constructors exactly if the types of their parameters are.
-/

namespace Correspondence

open Descriptor

namespace Host

variable {host : Host} {a b : DeclId}

/-- The type of a parameter with all type variables replaced by their bounds. A parameter without a type
may hold any object. -/
def erasedParameter (host : Host) (p : DeclId) : JvmType :=
  ((host.type p).getD (.object "java/lang/Object")).fullyErased

/-- The type of a result with all type variables replaced by their bounds. A method without a type has no
result. -/
def erasedResult (host : Host) (d : DeclId) : JvmType :=
  ((host.type d).getD .void).fullyErased

theorem parameterDescriptor_eq_iff {p q : DeclId} :
    host.parameterDescriptor p = host.parameterDescriptor q ↔
      host.erasedParameter p = host.erasedParameter q := by
  have hdescriptor (p : DeclId) : host.parameterDescriptor p =
      ((host.type p).getD (.object "java/lang/Object")).descriptor :=
    Option.getD_map JvmType.descriptor (.object "java/lang/Object") (host.type p)
  rw [hdescriptor, hdescriptor, JvmType.descriptor_eq_iff]
  rfl

theorem resultDescriptor_eq_iff :
    host.resultDescriptor a = host.resultDescriptor b ↔
      host.erasedResult a = host.erasedResult b := by
  have hdescriptor (d : DeclId) :
      host.resultDescriptor d = ((host.type d).getD .void).descriptor :=
    Option.getD_map JvmType.descriptor .void (host.type d)
  rw [hdescriptor, hdescriptor, JvmType.descriptor_eq_iff]
  rfl

/-- Whether the parameters of two members are as many, and of the same types in the same order. -/
def ParametersAgree (host : Host) (a b : DeclId) : Prop :=
  List.Forall₂ (fun p q => host.erasedParameter p = host.erasedParameter q)
    (host.parameters a) (host.parameters b)

theorem parametersAgree_iff :
    host.ParametersAgree a b ↔ (host.parameters a).map host.parameterDescriptor =
      (host.parameters b).map host.parameterDescriptor := by
  rw [← List.forall₂_eq_eq_eq, List.forall₂_map_left_iff, List.forall₂_map_right_iff]
  simp only [parameterDescriptor_eq_iff]
  rfl

/-- The signatures of two methods are equal exactly if their names, the types of their parameters and
those of their results are. -/
theorem NamesPlainly.signature_eq_iff_of_method (h : host.NamesPlainly) (ha : host.kind a = .method)
    (hb : host.kind b = .method) :
    host.signature a = host.signature b ↔
      host.simpleName a = host.simpleName b ∧ host.ParametersAgree a b ∧
        host.erasedResult a = host.erasedResult b := by
  rw [signature_of_ne_constructor (by rw [ha]; decide), signature_of_ne_constructor (by rw [hb]; decide),
    parametersAgree_iff, ← resultDescriptor_eq_iff]
  constructor
  · exact signature_inj h.isType_of_mem h.isType_of_mem
      (h.isType_resultDescriptor a) (h.isType_resultDescriptor b)
  · rintro ⟨hname, hparameters, hresult⟩
    rw [hname, hparameters, hresult]

/-- The signatures of two constructors are equal exactly if the types of their parameters are. -/
theorem NamesPlainly.signature_eq_iff_of_constructor (h : host.NamesPlainly)
    (ha : host.kind a = .constructor) (hb : host.kind b = .constructor) :
    host.signature a = host.signature b ↔ host.ParametersAgree a b := by
  rw [signature_of_constructor ha, signature_of_constructor hb, parametersAgree_iff]
  constructor
  · intro hsignature
    exact (signature_inj h.isType_of_mem h.isType_of_mem isType_void isType_void
      hsignature).2.1
  · intro hparameters
    rw [hparameters]

/-- Signatures are a faithful key for methods, and for constructors: where no class name has a semicolon or
an opening parenthesis, they are equal exactly for members that are called in the same way. -/
theorem NamesPlainly.signature_eq_iff (h : host.NamesPlainly) (a b : DeclId) :
    (host.kind a = .method → host.kind b = .method →
      (host.signature a = host.signature b ↔
        host.simpleName a = host.simpleName b ∧ host.ParametersAgree a b ∧
          host.erasedResult a = host.erasedResult b)) ∧
    (host.kind a = .constructor → host.kind b = .constructor →
      (host.signature a = host.signature b ↔ host.ParametersAgree a b)) :=
  ⟨h.signature_eq_iff_of_method, h.signature_eq_iff_of_constructor⟩

/-- The methods with the type variable and with its bound have the same signature, and the constructors
with an element and with an array have different ones. -/
theorem NamesPlainly.signature_eq_generic :
    let host := DeclTree.generic.toHost
    host.type ⟨4⟩ ≠ host.type ⟨7⟩ ∧ host.signature ⟨2⟩ = host.signature ⟨5⟩ ∧
      host.signature ⟨8⟩ ≠ host.signature ⟨10⟩ := by
  intro host
  have hplain : host.NamesPlainly := DeclTree.namesPlainly_toHost rfl
  have hmethods := (hplain.signature_eq_iff ⟨2⟩ ⟨5⟩).1 rfl rfl
  have hconstructors := (hplain.signature_eq_iff ⟨8⟩ ⟨10⟩).2 rfl rfl
  refine ⟨nofun, ?_, ?_⟩
  · have hparameters : host.ParametersAgree ⟨2⟩ ⟨5⟩ := .cons rfl (.cons rfl .nil)
    exact hmethods.mpr ⟨rfl, hparameters, rfl⟩
  · intro hsignature
    cases hconstructors.mp hsignature with
    | cons hfirst _ => cases hfirst

end Host

end Correspondence
