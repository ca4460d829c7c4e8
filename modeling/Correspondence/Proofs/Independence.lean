import Correspondence.Proofs.Runs

/-!
# Independence of what was asked before

What a declaration is resolved to does not depend on the operations before, apart from the numbers
of the elements. So a failure changes no other answer, and comes again when it is asked for again.
-/

namespace Correspondence

/-- What an element is without numbers: the element with all numbers alike, and of each element that
it refers to the kind and the declarations that it stands for. -/
structure View where
  content : Element
  references : List (String × List DeclId)
deriving DecidableEq, Repr

namespace Cache

/-- What a reference to an element shows without its number. -/
def reference? (c : Cache) (id : ElementId) : Option (String × List DeclId) :=
  (c.element? id).map fun e => (e.kindName, e.hostForms)

/-- An element without numbers, if all that it refers to is there. -/
def view? (c : Cache) (id : ElementId) : Option View := do
  let e ← c.element? id
  let references ← e.references.mapM c.reference?
  return ⟨e.mapIds fun _ => ⟨0⟩, references⟩

end Cache

namespace Resolver

variable {r : Resolver} {c : Cache}

/-- What a reference to the element with an origin shows without its number. -/
def reference? (r : Resolver) (o : Origin) : Option (String × List DeclId) :=
  (r.element? o).map fun e => (e.kindName, e.hostForms)

/-- The element with an origin, without numbers. -/
def view? (r : Resolver) (o : Origin) : Option View := do
  let e ← r.element? o
  let references ← e.references.mapM fun j => r.reference? (o.target j)
  return ⟨e.mapIds fun _ => ⟨0⟩, references⟩

private theorem references_of_holds (linked : r.host.Linked) {o : Origin}
    {f : ElementId → ElementId} {ids : List ElementId}
    (hids : ∀ j ∈ ids, (o.target j).Holds r c (f j)) :
    ∃ shown, (ids.map f).mapM c.reference? = some shown ∧
      ids.mapM (fun j => r.reference? (o.target j)) = some shown := by
  induction ids with
  | nil => exact ⟨[], rfl, rfl⟩
  | cons j ids ih =>
    obtain ⟨shown, hc, hr⟩ := ih fun i hi => hids i (List.mem_cons_of_mem _ hi)
    obtain ⟨e, g, he, hel, -⟩ := (hids j List.mem_cons_self).element linked
    have hj : c.reference? (f j) = some (e.kindName, e.hostForms) := by
      simp [Cache.reference?, hel]
    have hj' : r.reference? (o.target j) = some (e.kindName, e.hostForms) := by
      simp [reference?, he]
    refine ⟨(e.kindName, e.hostForms) :: shown, ?_, ?_⟩
    · simp [hj, hc]
    · simp [hj', hr]

/-- An element shows without numbers what its origin shows. -/
theorem view?_of_holds (linked : r.host.Linked) {o : Origin} {id : ElementId}
    (h : o.Holds r c id) : ∃ v, c.view? id = some v ∧ r.view? o = some v := by
  obtain ⟨e, f, he, hel, hrefs⟩ := h.element linked
  obtain ⟨shown, hc, hr⟩ := references_of_holds linked hrefs
  refine ⟨⟨e.mapIds fun _ => ⟨0⟩, shown⟩, ?_, ?_⟩
  · simp [Cache.view?, hel, hc, Element.mapIds_mapIds, Function.comp_def]
  · simp [view?, he, hr]

/-- Whether two runs give the same answer: the same error, no element, or elements that are the same
without their numbers. -/
inductive SameAnswer : EStateM.Result ResolveError Cache (Option ElementId) →
    EStateM.Result ResolveError Cache (Option ElementId) → Prop
  | failed (e : ResolveError) (c c' : Cache) : SameAnswer (.error e c) (.error e c')
  | absent (c c' : Cache) : SameAnswer (.ok none c) (.ok none c')
  | found {c c' : Cache} {id id' : ElementId} {v : View} (h : c.view? id = some v)
      (h' : c'.view? id' = some v) : SameAnswer (.ok (some id) c) (.ok (some id') c')

theorem sameAnswer_of_agrees (linked : r.host.Linked) {d : DeclId} {c c' : Cache}
    {x x' : EStateM.Result ResolveError Cache (Option ElementId)}
    {y : Except ResolveError (Option Origin)} (h : r.Agrees d c x y) (h' : r.Agrees d c' x' y) :
    SameAnswer x x' := by
  cases h with
  | found _ _ holds =>
    cases h' with
    | found _ _ holds' =>
      obtain ⟨v, hv, ho⟩ := view?_of_holds linked holds
      obtain ⟨v', hv', ho'⟩ := view?_of_holds linked holds'
      obtain rfl := Option.some.inj (ho.symm.trans ho')
      exact .found hv hv'
  | absent _ =>
    cases h' with
    | absent _ => exact .absent _ _
  | failed _ =>
    cases h' with
    | failed _ => exact .failed _ _ _

/-- A declaration is resolved to the same after any operations. -/
theorem sameAnswer_resolve {t : DeclTree} (built : t.Built) (acyclic : t.toHost.Acyclic)
    (config : Config) (ops ops' : List Operation) (d : DeclId) :
    let r : Resolver := ⟨t.toHost, config⟩
    SameAnswer (r.resolve d (r.runAll ops)) (r.resolve d (r.runAll ops')) := by
  intro r
  have linked : r.host.Linked := built.linked.toHost
  have h := agrees_resolve linked acyclic d _ (faithful_runAll linked acyclic ops)
  have h' := agrees_resolve linked acyclic d _ (faithful_runAll linked acyclic ops')
  exact sameAnswer_of_agrees linked h h'

/-- A package that is asked for first moves the numbers only. -/
theorem sameAnswer_overloaded :
    let r : Resolver := ⟨(DeclTree.overloaded .overloaded).toHost, {}⟩
    SameAnswer (r.resolve ⟨6⟩ (r.runAll [.resolve ⟨0⟩, .companion ⟨0⟩]))
      (r.resolve ⟨6⟩ (r.runAll [.resolve ⟨3⟩])) :=
  sameAnswer_resolve (DeclTree.built_overloaded .overloaded)
    (DeclTree.acyclic_overloaded .overloaded) {} [.resolve ⟨0⟩, .companion ⟨0⟩] [.resolve ⟨3⟩] ⟨6⟩

end Resolver

end Correspondence
