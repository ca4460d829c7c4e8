import Correspondence.Proofs.Decoding
import Correspondence.Proofs.Matching

/-!
# Erasure

A descriptor says as much of a type as is left when all type variables are replaced by their bounds.
Erasing a type replaces the outermost ones only. So it agrees with the descriptor exactly if no type
variable is among the elements of an array.
-/

namespace Correspondence

namespace JvmType

/-- The type with all of its type variables replaced by their bounds. -/
def fullyErased : JvmType → JvmType
  | .array element => .array element.fullyErased
  | .typeVariable _ bound => bound.fullyErased
  | type => type

/-- Whether there is a type variable in a type. -/
def hasVariable : JvmType → Bool
  | .array element => element.hasVariable
  | .typeVariable _ _ => true
  | _ => false

/-- Whether a type is an array with a type variable in its elements, or has such a bound. -/
def hasVariableElement : JvmType → Bool
  | .array element => element.hasVariable
  | .typeVariable _ bound => bound.hasVariableElement
  | _ => false

@[simp] theorem descriptor_fullyErased (type : JvmType) :
    type.fullyErased.descriptor = type.descriptor := by
  induction type with
  | array element ih => simp only [fullyErased, descriptor, ih]
  | typeVariable name bound ih => simpa only [fullyErased, descriptor] using ih
  | _ => rfl

@[simp] theorem hasVariable_fullyErased (type : JvmType) :
    type.fullyErased.hasVariable = false := by
  induction type with
  | array element ih => simpa only [fullyErased, hasVariable] using ih
  | typeVariable name bound ih => simpa only [fullyErased] using ih
  | _ => rfl

@[simp] theorem hasVariable_erased (type : JvmType) :
    type.erased.hasVariable = type.hasVariableElement := by
  induction type with
  | typeVariable name bound ih => simpa only [erased, hasVariableElement] using ih
  | _ => rfl

theorem fullyErased_eq_self {type : JvmType} (h : type.hasVariable = false) :
    type.fullyErased = type := by
  induction type with
  | array element ih =>
    simp only [hasVariable] at h
    rw [fullyErased, ih h]
  | typeVariable name bound ih => cases h
  | _ => rfl

theorem erased_eq_self {type : JvmType} (h : type.hasVariable = false) : type.erased = type := by
  cases type with
  | typeVariable => cases h
  | _ => rfl

@[simp] theorem fullyErased_erased (type : JvmType) : type.erased.fullyErased = type.fullyErased := by
  induction type with
  | typeVariable name bound ih => simpa only [erased, fullyErased] using ih
  | _ => rfl

/-- Without type variables in the elements of arrays, erasing leaves none at all. -/
theorem erased_eq_fullyErased_iff {type : JvmType} :
    type.erased = type.fullyErased ↔ type.hasVariableElement = false := by
  rw [← hasVariable_erased]
  constructor
  · intro h
    rw [h, hasVariable_fullyErased]
  · intro h
    rw [← fullyErased_eq_self h, fullyErased_erased]

/-- Types without type variables are told apart by their descriptors. -/
theorem eq_of_descriptor_eq {type type' : JvmType} (h : type.hasVariable = false)
    (h' : type'.hasVariable = false) (hdescriptor : type.descriptor = type'.descriptor) :
    type = type' := by
  have htext := congrArg String.toList hdescriptor
  induction type generalizing type' with
  | array element ih =>
    cases type' with
    | array element' =>
      have hsame : element.descriptor = element'.descriptor := by
        simpa only [descriptor, String.append_right_inj] using hdescriptor
      have hground : element'.hasVariable = false := h'
      rw [ih h hground hsame (congrArg String.toList hsame)]
    | typeVariable => cases h'
    | _ => simp [descriptor] at htext
  | typeVariable => cases h
  | object name =>
    cases type' with
    | object name' =>
      simp only [descriptor, String.append_left_inj, String.append_right_inj] at hdescriptor
      rw [hdescriptor]
    | typeVariable => cases h'
    | _ => simp [descriptor] at htext
  | _ =>
    cases type' with
    | typeVariable => cases h'
    | _ => simp [descriptor] at htext ⊢

theorem descriptor_eq_iff {type type' : JvmType} :
    type.descriptor = type'.descriptor ↔ type.fullyErased = type'.fullyErased := by
  constructor
  · intro h
    rw [← descriptor_fullyErased type, ← descriptor_fullyErased type'] at h
    exact eq_of_descriptor_eq (hasVariable_fullyErased _) (hasVariable_fullyErased _) h
  · intro h
    rw [← descriptor_fullyErased, h, descriptor_fullyErased]

/-- Without type variables in the elements of arrays, erasing agrees with the descriptor. -/
theorem erased_eq_iff {type type' : JvmType} (h : type.hasVariableElement = false)
    (h' : type'.hasVariableElement = false) :
    type.erased = type'.erased ↔ type.descriptor = type'.descriptor := by
  rw [erased_eq_fullyErased_iff.mpr h, erased_eq_fullyErased_iff.mpr h', descriptor_eq_iff]

/-- A type agrees with all types that have no type variables in the elements of arrays exactly if it has
none there itself. -/
theorem hasVariableElement_eq_false_iff {type : JvmType} :
    type.hasVariableElement = false ↔ ∀ type' : JvmType, type'.hasVariableElement = false →
      (type.erased = type'.erased ↔ type.descriptor = type'.descriptor) := by
  constructor
  · intro h type' h'
    exact erased_eq_iff h h'
  · intro h
    -- What is left of the type when all of its variables are replaced has the same descriptor.
    have hground : type.fullyErased.erased = type.fullyErased :=
      erased_eq_self (hasVariable_fullyErased type)
    have hnone : type.fullyErased.hasVariableElement = false := by
      rw [← hasVariable_erased, hground, hasVariable_fullyErased]
    have hsame : type.erased = type.fullyErased.erased :=
      (h type.fullyErased hnone).mpr (descriptor_fullyErased type).symm
    rw [← hasVariable_erased, hsame, hground, hasVariable_fullyErased]

end JvmType

/-- Parameters of compiled members are the same to a search exactly if their names and descriptors are,
provided that no type variable is among the elements of an array. -/
theorem Host.sameAs_hostParameter_iff {host : Host} {p q : DeclId}
    (hp : ∀ type ∈ host.type p, type.hasVariableElement = false)
    (hq : ∀ type ∈ host.type q, type.hasVariableElement = false) :
    (host.hostParameter p).sameAs (host.hostParameter q) ↔
      host.simpleName p = host.simpleName q ∧
        (host.type p).map JvmType.descriptor = (host.type q).map JvmType.descriptor := by
  have htypes : (host.type p).map JvmType.erased = (host.type q).map JvmType.erased ↔
      (host.type p).map JvmType.descriptor = (host.type q).map JvmType.descriptor := by
    cases htype : host.type p with
    | none => cases host.type q <;> simp
    | some type =>
      cases htype' : host.type q with
      | none => simp
      | some type' =>
        simpa using JvmType.erased_eq_iff (hp type htype) (hq type' htype')
  rw [HostParameter.sameAs_iff]
  exact and_congr_right fun _ => htypes

/-- Erasing leaves no type variable exactly if there is none in the elements of an array. Exactly then
the erased type agrees with the descriptor, and a search compares parameters by their descriptors. -/
theorem JvmType.erased_agrees (type : JvmType) (host : Host) (p q : DeclId) :
    (type.erased.hasVariable = false ↔ type.hasVariableElement = false) ∧
    (type.hasVariableElement = false ↔ ∀ type' : JvmType, type'.hasVariableElement = false →
      (type.erased = type'.erased ↔ type.descriptor = type'.descriptor)) ∧
    ((∀ type ∈ host.type p, type.hasVariableElement = false) →
      (∀ type ∈ host.type q, type.hasVariableElement = false) →
        ((host.hostParameter p).sameAs (host.hostParameter q) ↔
          host.simpleName p = host.simpleName q ∧
            (host.type p).map JvmType.descriptor = (host.type q).map JvmType.descriptor)) := by
  refine ⟨?_, hasVariableElement_eq_false_iff, fun hp hq => ?_⟩
  · rw [hasVariable_erased]
  · exact Host.sameAs_hostParameter_iff hp hq

/-- A class with two methods `f`, of which one has a type variable where the other one has its bound, and
two constructors, of which one takes an array where the other one takes an element. -/
def DeclTree.generic : DeclTree :=
  let bound : JvmType := .object "java/lang/Comparable"
  let type : JvmType := .typeVariable "T" bound
  let t := ({} : DeclTree).addPackage "p"
  let t := t.addType ⟨0⟩ .classType "C"
  let t := t.addMethod ⟨1⟩ "f" .void
  let t := t.addParameter ⟨2⟩ "first" type
  let t := t.addParameter ⟨2⟩ "rest" (.array type)
  let t := t.addMethod ⟨1⟩ "f" .void
  let t := t.addParameter ⟨5⟩ "first" bound
  let t := t.addParameter ⟨5⟩ "rest" (.array bound)
  let t := t.addConstructor ⟨1⟩
  let t := t.addParameter ⟨8⟩ "first" type
  let t := t.addConstructor ⟨1⟩
  t.addParameter ⟨10⟩ "rest" (.array type)

/-- The type variable is erased, and the parameters whose types are the type variable and its bound are the
same to a search. -/
theorem JvmType.erased_agrees_generic :
    let bound : JvmType := .object "java/lang/Comparable"
    let type : JvmType := .typeVariable "T" bound
    let host := DeclTree.generic.toHost
    type.erased.hasVariable = false ∧ type.erased = bound.erased ∧
      host.type ⟨3⟩ = some type ∧ host.type ⟨6⟩ = some bound ∧
      (host.hostParameter ⟨3⟩).sameAs (host.hostParameter ⟨6⟩) := by
  intro bound type host
  have htype : host.type ⟨3⟩ = some type := rfl
  have hbound : host.type ⟨6⟩ = some bound := rfl
  have hp : ∀ t ∈ host.type ⟨3⟩, t.hasVariableElement = false := by
    rintro _ ⟨⟩
    rfl
  have hq : ∀ t ∈ host.type ⟨6⟩, t.hasVariableElement = false := by
    rintro _ ⟨⟩
    rfl
  obtain ⟨hnone, hagrees, hsame⟩ := type.erased_agrees host ⟨3⟩ ⟨6⟩
  refine ⟨hnone.mpr rfl, (hagrees.mp rfl bound rfl).mpr rfl, htype, hbound, ?_⟩
  exact (hsame hp hq).mpr ⟨rfl, by rw [htype, hbound]; rfl⟩

/-- An array of type variables is erased to itself. So it is told apart from the array of their bound,
although the descriptors are equal, and a search takes the parameters of these types for different
ones. -/
theorem JvmType.not_forall_erased_agrees :
    (¬ ∀ type : JvmType, type.erased.hasVariable = false) ∧
    (¬ ∀ type type' : JvmType,
      (∀ name, type.className? = some name → ';' ∉ name.toList) →
      (∀ name, type'.className? = some name → ';' ∉ name.toList) →
        type.descriptor = type'.descriptor → type.erased = type'.erased) ∧
    let host := DeclTree.generic.toHost
    host.parameterDescriptor ⟨4⟩ = host.parameterDescriptor ⟨7⟩ ∧
      (host.hostParameter ⟨4⟩).sameAs (host.hostParameter ⟨7⟩) = false := by
  refine ⟨fun h => ?_, fun h => ?_, rfl, by decide⟩
  · have hnone := h (.array (.typeVariable "T" (.object "java/lang/Comparable")))
    cases hnone
  · have hplain : ∀ name, some "java/lang/Comparable" = some name → ';' ∉ name.toList := by
      rintro _ ⟨⟩
      decide
    have hsame := h (.array (.typeVariable "T" (.object "java/lang/Comparable")))
      (.array (.object "java/lang/Comparable")) hplain hplain rfl
    cases hsame

end Correspondence
