import Correspondence.Proofs.Decoding
import Correspondence.Proofs.Outcomes
import Correspondence.Proofs.Runs

/-!
# Computed signatures

Where no signature is recorded, the computed one fixes the number of compiled parameters. So a member
that has it has a receiver, the value parameters and a continuation exactly where the descriptor says
so.
-/

namespace Correspondence

open Descriptor

/-- The types that the signatures of a class are computed from. -/
def ClassDescriptor.types (c : ClassDescriptor) : List TypeRef :=
  c.typeParameters.flatMap TypeParameterDescriptor.upperBounds ++
    c.functions.flatMap FunctionDescriptor.types ++
    c.constructors.flatMap ConstructorDescriptor.types

/-- The types that the signatures of a file are computed from. -/
def PackageDescriptor.types (p : PackageDescriptor) : List TypeRef :=
  p.functions.flatMap FunctionDescriptor.types

/-- Whether all class names in the types of a class are plain. -/
def ClassMetadata.NamesPlainly (metadata : ClassMetadata) : Prop :=
  ∀ type ∈ metadata.descriptor.types, type.IsPlain metadata.strings

/-- Whether all class names in the types of a file are plain. -/
def PackageMetadata.NamesPlainly (metadata : PackageMetadata) : Prop :=
  ∀ type ∈ metadata.descriptor.types, type.IsPlain metadata.strings

namespace ClassMetadata.NamesPlainly

variable {metadata : ClassMetadata}

theorem boundsPlain (h : metadata.NamesPlainly) :
    (Scope.enter ⟨metadata.strings, []⟩ metadata.descriptor.typeParameters).BoundsPlain := by
  intro p hp bound hbound
  rw [Scope.enter, List.append_nil, List.mem_reverse] at hp
  exact h bound (List.mem_append_left _ (List.mem_append_left _
    (List.mem_flatMap.mpr ⟨p, hp, hbound⟩)))

theorem function (h : metadata.NamesPlainly) {f : FunctionDescriptor}
    (hf : f ∈ metadata.descriptor.functions) : ∀ type ∈ f.types, type.IsPlain metadata.strings :=
  fun type htype => h type (List.mem_append_left _ (List.mem_append_right _
    (List.mem_flatMap.mpr ⟨f, hf, htype⟩)))

theorem constructor (h : metadata.NamesPlainly) {c : ConstructorDescriptor}
    (hc : c ∈ metadata.descriptor.constructors) : ∀ type ∈ c.types, type.IsPlain metadata.strings :=
  fun type htype => h type (List.mem_append_right _ (List.mem_flatMap.mpr ⟨c, hc, htype⟩))

end ClassMetadata.NamesPlainly

/-- Whether a request is for a function or constructor of metadata with plain class names that
records no signature for it. -/
inductive MatchRequest.IsComputed : MatchRequest → Prop
  | function {owner : String} {metadata : ClassMetadata} {index : DescriptorIndex} {i : Nat}
      {f : IndexedFunction} {d : FunctionDescriptor}
      (hindex : DescriptorIndex.ofClass owner metadata = .ok index) (plain : metadata.NamesPlainly)
      (hf : index.functions[i]? = some f) (hd : metadata.descriptor.functions[i]? = some d)
      (unrecorded : d.signature = none) : IsComputed (.ofFunction f)
  | constructor {owner : String} {metadata : ClassMetadata} {index : DescriptorIndex} {i : Nat}
      {f : IndexedConstructor} {d : ConstructorDescriptor}
      (hindex : DescriptorIndex.ofClass owner metadata = .ok index) (plain : metadata.NamesPlainly)
      (hf : index.constructors[i]? = some f) (hd : metadata.descriptor.constructors[i]? = some d)
      (unrecorded : d.signature = none) : IsComputed (.ofConstructor f)
  | fileFunction {owner : String} {metadata : PackageMetadata} {index : DescriptorIndex} {i : Nat}
      {f : IndexedFunction} {d : FunctionDescriptor}
      (hindex : DescriptorIndex.ofPackage owner metadata = .ok index)
      (plain : metadata.NamesPlainly) (hf : index.functions[i]? = some f)
      (hd : metadata.descriptor.functions[i]? = some d) (unrecorded : d.signature = none) :
      IsComputed (.ofFunction f)

namespace MatchRequest

variable {scope : Scope}

private theorem declares_ofFunction (hscope : scope.BoundsPlain) {f : IndexedFunction}
    {d : FunctionDescriptor} (hf : f.MadeFrom scope d)
    (htypes : ∀ type ∈ d.types, type.IsPlain scope.strings) (unrecorded : d.signature = none) :
    Declares f.signature (ofFunction f).count := by
  have hdeclares := scope.declares_functionSignature hscope htypes unrecorded hf.signature
  rwa [← hf.hasReceiver, ← hf.isSuspending, ← hf.parameters] at hdeclares

private theorem declares_ofConstructor (hscope : scope.BoundsPlain) {isEnum : Bool}
    {f : IndexedConstructor} {d : ConstructorDescriptor} (hf : f.MadeFrom scope isEnum d)
    (htypes : ∀ type ∈ d.types, type.IsPlain scope.strings) (unrecorded : d.signature = none) :
    Declares f.signature (ofConstructor f).count := by
  obtain ⟨owner, hsignature⟩ := hf.signature
  have hdeclares := scope.declares_constructorSignature hscope htypes unrecorded hsignature
  rw [← hf.parameters] at hdeclares
  simpa [count, ofConstructor] using hdeclares

private theorem boundsPlain_empty (strings : StringTable) : (⟨strings, []⟩ : Scope).BoundsPlain := by
  intro p hp
  cases hp

/-- A computed signature declares as many parameters as the request expects. -/
theorem IsComputed.declares {request : MatchRequest} (h : request.IsComputed) :
    Declares request.signature request.count := by
  cases h with
  | @function owner metadata index i f d hindex plain hf hd unrecorded =>
    obtain ⟨f', hf', hmade⟩ :=
      exists_getElem?_of_forall₂ (DescriptorIndex.madeFrom_ofClass hindex).functions hd
    obtain rfl := Option.some.inj (hf.symm.trans hf')
    exact declares_ofFunction plain.boundsPlain hmade (plain.function (List.mem_of_getElem? hd))
      unrecorded
  | @constructor owner metadata index i f d hindex plain hf hd unrecorded =>
    obtain ⟨f', hf', hmade⟩ :=
      exists_getElem?_of_forall₂ (DescriptorIndex.madeFrom_ofClass hindex).constructors hd
    obtain rfl := Option.some.inj (hf.symm.trans hf')
    exact declares_ofConstructor plain.boundsPlain hmade
      (plain.constructor (List.mem_of_getElem? hd)) unrecorded
  | @fileFunction owner metadata index i f d hindex plain hf hd unrecorded =>
    obtain ⟨f', hf', hmade⟩ :=
      exists_getElem?_of_forall₂ (DescriptorIndex.madeFrom_ofPackage hindex).functions hd
    obtain rfl := Option.some.inj (hf.symm.trans hf')
    refine declares_ofFunction (boundsPlain_empty _) hmade (fun type htype => ?_) unrecorded
    exact plain type (List.mem_flatMap.mpr ⟨d, List.mem_of_getElem? hd, htype⟩)

end MatchRequest

/-- Where the signature of a descriptor is computed and class names are plain, every member with that
signature has the parameters of the descriptor: its receiver, its value parameters and its
continuation. So the search never complains about their number. -/
theorem MemberMatcher.count_of_signature {m : MemberMatcher} (hplain : m.host.NamesPlainly)
    {request : MatchRequest} (h : request.IsComputed) :
    (∀ d ∈ m.host.members m.owner m.kind, m.host.signature d = request.signature →
      (m.host.parameters d).length =
        request.implicitLeading + request.parameters.length + request.implicitTrailing) ∧
    ∀ host descriptor hostCount descriptorCount,
      m.find request ≠
        .error (.parameterCountMismatch host descriptor hostCount descriptorCount) := by
  have hcount : ∀ d ∈ m.host.members m.owner m.kind, m.host.signature d = request.signature →
      (m.host.parameters d).length = request.count := by
    intro d _ hsignature
    have hdeclares := hplain.declares_signature d
    rw [hsignature] at hdeclares
    exact hdeclares.unique h.declares
  exact ⟨hcount, find_ne_parameterCountMismatch hcount⟩

theorem ClassMetadata.namesPlainly_overloaded : overloaded.NamesPlainly := by
  have hnames : ∀ text ∈ overloaded.strings.toList, ClassName.IsPlain text := by decide
  exact fun type _ => TypeRef.namesOnly_of_forall hnames type

/-- The index of the class with the function. -/
def DescriptorIndex.overloaded : DescriptorIndex where
  owner := "C"
  functions := [
    { name := "f", signature := "f(I)V", parameters := [{ name := "x", hasDefault := true }]
      typeParameters := ["T"], hasReceiver := false, isSuspending := false }]
  functionPositions := ⟨[("f(I)V", 0)]⟩

theorem DescriptorIndex.ofClass_overloaded : ofClass "C" .overloaded = .ok overloaded := by
  cbv

/-- The compiled method with the signature of the function has the one parameter of the function. -/
theorem MemberMatcher.count_overloaded :
    let m : MemberMatcher :=
      { host := (DeclTree.overloaded .overloaded).toHost, owner := ⟨1⟩, kind := .method }
    ∃ f, DescriptorIndex.overloaded.functions[0]? = some f ∧
      m.host.signature ⟨2⟩ = f.signature ∧ (m.host.parameters ⟨2⟩).length = f.parameters.length ∧
      ∀ host descriptor hostCount descriptorCount, m.find (.ofFunction f) ≠
        .error (.parameterCountMismatch host descriptor hostCount descriptorCount) := by
  intro m
  have hplain : m.host.NamesPlainly := DeclTree.namesPlainly_toHost rfl
  obtain ⟨hcount, hfind⟩ := count_of_signature hplain (MatchRequest.IsComputed.function (i := 0)
    DescriptorIndex.ofClass_overloaded ClassMetadata.namesPlainly_overloaded rfl rfl rfl)
  have hsignature : m.host.signature ⟨2⟩ = "f(I)V" := rfl
  exact ⟨_, rfl, hsignature, hcount ⟨2⟩ (by decide) hsignature, hfind⟩

end Correspondence
