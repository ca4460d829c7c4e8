import Correspondence.Proofs.Runs

/-!
# Ownership

Every declaration that an element stands for is entered for that element, so that no two elements
stand for the same one.
-/

namespace Correspondence.Resolver

/-- The elements never share what they stand for: every declaration that an element stands for is
entered for that element. -/
theorem get?_of_mem_hostForms {t : DeclTree} (built : t.Built) (acyclic : t.toHost.Acyclic)
    (config : Config) (ops : List Operation) :
    let c := runAll ⟨t.toHost, config⟩ ops
    (∀ id e d, c.element? id = some e → d ∈ e.hostForms → c.get? d = some id) ∧
      ∀ id id' e e', c.element? id = some e → c.element? id' = some e' → id ≠ id' →
        e.hostForms.Disjoint e'.hostForms := by
  intro c
  have hfaithful : Faithful ⟨t.toHost, config⟩ c :=
    faithful_runAll built.linked.toHost acyclic ops
  refine ⟨fun id e d he hd => hfaithful.filed he hd, ?_⟩
  intro id id' e e' he he' hne d hd hd'
  have hid := hfaithful.filed he hd
  have hid' := hfaithful.filed he' hd'
  exact hne (Option.some.inj (hid.symm.trans hid'))

/-- The sibling is entered for the element of the function. -/
theorem get?_overloaded :
    let c := runAll ⟨(DeclTree.overloaded .overloaded).toHost, {}⟩ [.resolve ⟨6⟩, .companion ⟨0⟩]
    ∃ e, c.element? ⟨1⟩ = some e ∧ ⟨5⟩ ∈ e.hostForms ∧ c.get? ⟨5⟩ = some ⟨1⟩ := by
  intro c
  obtain ⟨hfiled, -⟩ := get?_of_mem_hostForms (DeclTree.built_overloaded .overloaded)
    (DeclTree.acyclic_overloaded .overloaded) {} [.resolve ⟨6⟩, .companion ⟨0⟩]
  have hc : c = Cache.overloaded.rememberCompanion ⟨0⟩ none := runAll_overloaded [.companion ⟨0⟩]
  have hform : ∃ e, c.element? ⟨1⟩ = some e ∧ ⟨5⟩ ∈ e.hostForms := by
    rw [hc]
    exact ⟨_, rfl, by decide⟩
  obtain ⟨e, he, hmem⟩ := hform
  exact ⟨e, he, hmem, hfiled ⟨1⟩ e ⟨5⟩ he hmem⟩

end Correspondence.Resolver
