import Correspondence.Element

/-!
# References between elements

The numbers by which an element refers to others, and what an element is apart from them.
-/

namespace Correspondence.Element

/-- The elements that an element refers to. -/
def references : Element → List ElementId
  | .package _ => []
  | .type e => e.constructors ++ e.functions ++ e.properties ++ e.typeParameters ++ e.enumEntries
  | .fileFacade e => e.functions ++ e.properties
  | .function e => e.owner :: (e.parameters ++ e.typeParameters)
  | .constructor e => e.owner :: e.parameters
  | .property e => [e.owner]
  | .parameter e => [e.owner]
  | .typeParameter e => [e.owner]
  | .enumEntry e => [e.owner]
  | .implicit e => e.owner.toList

/-- Replaces every number by which the element refers to another one. -/
def mapIds (f : ElementId → ElementId) : Element → Element
  | .package e => .package e
  | .type e => .type { e with
      constructors := e.constructors.map f, functions := e.functions.map f,
      properties := e.properties.map f, typeParameters := e.typeParameters.map f,
      enumEntries := e.enumEntries.map f }
  | .fileFacade e => .fileFacade { e with
      functions := e.functions.map f, properties := e.properties.map f }
  | .function e => .function { e with
      owner := f e.owner, parameters := e.parameters.map f,
      typeParameters := e.typeParameters.map f }
  | .constructor e => .constructor { e with owner := f e.owner, parameters := e.parameters.map f }
  | .property e => .property { e with owner := f e.owner }
  | .parameter e => .parameter { e with owner := f e.owner }
  | .typeParameter e => .typeParameter { e with owner := f e.owner }
  | .enumEntry e => .enumEntry { e with owner := f e.owner }
  | .implicit e => .implicit { e with owner := e.owner.map f }

theorem mem_references_of_parameters? {e : Element} {ids : List ElementId} {j : ElementId}
    (h : e.parameters? = some ids) (hj : j ∈ ids) : j ∈ e.references := by
  cases e <;> simp_all [parameters?, references]

theorem mem_references_of_typeParameters? {e : Element} {ids : List ElementId} {j : ElementId}
    (h : e.typeParameters? = some ids) (hj : j ∈ ids) : j ∈ e.references := by
  cases e <;> simp_all [typeParameters?, references]

theorem mem_references_of_mem_parameters {e : Element} {j : ElementId}
    (h : j ∈ e.parameters?.getD []) : j ∈ e.references := by
  cases hids : e.parameters? with
  | none => simp [hids] at h
  | some ids => exact mem_references_of_parameters? hids (by simpa [hids] using h)

theorem mem_references_of_mem_typeParameters {e : Element} {j : ElementId}
    (h : j ∈ e.typeParameters?.getD []) : j ∈ e.references := by
  cases hids : e.typeParameters? with
  | none => simp [hids] at h
  | some ids => exact mem_references_of_typeParameters? hids (by simpa [hids] using h)

section

variable (f : ElementId → ElementId) (e : Element)

@[simp] theorem references_mapIds : (e.mapIds f).references = e.references.map f := by
  cases e with
  | implicit e => cases h : e.owner <;> simp [mapIds, references, h]
  | _ => simp [mapIds, references]

@[simp] theorem hostForms_mapIds : (e.mapIds f).hostForms = e.hostForms := by
  cases e <;> rfl

@[simp] theorem kindName_mapIds : (e.mapIds f).kindName = e.kindName := by
  cases e <;> rfl

@[simp] theorem name_mapIds : (e.mapIds f).name = e.name := by
  cases e <;> rfl

@[simp] theorem describe_mapIds : (e.mapIds f).describe = e.describe := by
  simp [describe]

@[simp] theorem parameters?_mapIds :
    (e.mapIds f).parameters? = e.parameters?.map (List.map f) := by
  cases e <;> rfl

@[simp] theorem typeParameters?_mapIds :
    (e.mapIds f).typeParameters? = e.typeParameters?.map (List.map f) := by
  cases e <;> rfl

theorem getD_parameters?_mapIds :
    (e.mapIds f).parameters?.getD [] = (e.parameters?.getD []).map f := by
  rw [parameters?_mapIds]
  cases e.parameters? <;> rfl

theorem getD_typeParameters?_mapIds :
    (e.mapIds f).typeParameters?.getD [] = (e.typeParameters?.getD []).map f := by
  rw [typeParameters?_mapIds]
  cases e.typeParameters? <;> rfl

theorem mapIds_eq_self {e : Element} (h : e.references = []) : e.mapIds f = e := by
  cases e with
  | type e => obtain ⟨⟩ := e; simp_all [mapIds, references]
  | fileFacade e => obtain ⟨⟩ := e; simp_all [mapIds, references]
  | implicit e => obtain ⟨⟩ := e; simp_all [mapIds, references]
  | _ => simp_all [mapIds, references]

theorem mapIds_mapIds (g : ElementId → ElementId) :
    (e.mapIds f).mapIds g = e.mapIds (g ∘ f) := by
  cases e with
  | implicit e => cases h : e.owner <;> simp [mapIds, h]
  | _ => simp [mapIds]

end

end Correspondence.Element
