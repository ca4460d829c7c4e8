import Correspondence.Navigation
import Correspondence.Proofs.Adequacy
import Mathlib

/-!
# Runs

Any number of operations in any order, of which some may fail, leave a faithful cache, and every
element in it stays as it is.
-/

namespace Correspondence

/-- What a resolver is asked for. -/
inductive Operation
  | resolve (decl : DeclId)
  | metadataCarrier (decl : DeclId)
  | companion (id : ElementId)
  | enclosingElement (id : ElementId)
  | enclosedElements (id : ElementId)
deriving DecidableEq, Repr

namespace ResolveM

variable {α β : Type}

/-- The cache that a step leaves, also where it fails. -/
def after (x : ResolveM α) (c : Cache) : Cache :=
  match x c with
  | .ok _ c' => c'
  | .error _ c' => c'

theorem bind_eq_ok_iff {x : ResolveM α} {k : α → ResolveM β} {c c'' : Cache} {b : β} :
    (x >>= k) c = .ok b c'' ↔ ∃ a c', x c = .ok a c' ∧ k a c' = .ok b c'' := by
  simp only [Bind.bind, EStateM.bind]
  cases x c <;> simp

theorem after_bind (x : ResolveM α) (k : α → ResolveM β) (c : Cache) :
    after (x >>= k) c = after x c ∨ ∃ a, after (x >>= k) c = after (k a) (after x c) := by
  simp only [after, Bind.bind, EStateM.bind]
  cases x c with
  | ok a c' => exact .inr ⟨a, rfl⟩
  | error e c' => exact .inl rfl

/-- Whether a step leaves faithful caches faithful, with all their elements. -/
def Safe (r : Resolver) (x : ResolveM α) : Prop :=
  ∀ c, r.Faithful c → r.Faithful (after x c) ∧ c.Grows (after x c)

/-- Whether a step leaves faithful caches faithful, with all elements and the same companions. -/
def Keeping (r : Resolver) (x : ResolveM α) : Prop :=
  ∀ c, r.Faithful c → r.Keeps c (after x c)

variable {r : Resolver}

theorem Keeping.safe {x : ResolveM α} (h : Keeping r x) : Safe r x :=
  fun c hc => ⟨(h c hc).faithful, (h c hc).grows⟩

theorem Keeping.pure (a : α) : Keeping r (pure a) :=
  fun _ h => h.keeps

theorem Keeping.throw (e : ResolveError) : Keeping r (throw e : ResolveM α) :=
  fun _ h => h.keeps

theorem Keeping.get : Keeping r get :=
  fun _ h => h.keeps

theorem Keeping.bind {x : ResolveM α} {k : α → ResolveM β} (hx : Keeping r x)
    (hk : ∀ a, Keeping r (k a)) : Keeping r (x >>= k) := by
  intro c h
  have hkeeps := hx c h
  rcases after_bind x k c with heq | ⟨a, heq⟩
  · exact heq ▸ hkeeps
  · exact heq ▸ hkeeps.trans (hk a _ hkeeps.faithful)

theorem Keeping.foldlM {f : β → α → ResolveM β} (hf : ∀ b a, Keeping r (f b a)) (l : List α)
    (b : β) : Keeping r (l.foldlM f b) := by
  induction l generalizing b with
  | nil => exact .pure b
  | cons a l ih => exact (hf b a).bind ih

theorem Safe.bind {x : ResolveM α} {k : α → ResolveM β} (hx : Safe r x) (hk : ∀ a, Safe r (k a)) :
    Safe r (x >>= k) := by
  intro c h
  obtain ⟨hfaithful, hgrows⟩ := hx c h
  rcases after_bind x k c with heq | ⟨a, heq⟩
  · exact heq ▸ ⟨hfaithful, hgrows⟩
  · obtain ⟨hfaithful', hgrows'⟩ := hk a _ hfaithful
    exact heq ▸ ⟨hfaithful', hgrows.trans hgrows'⟩

end ResolveM

/-- Keeping a companion changes no element. -/
theorem Resolver.Faithful.rememberCompanion {r : Resolver} {c : Cache} (h : r.Faithful c)
    (owner : ElementId) (companion : Option ElementId) :
    r.Faithful (c.rememberCompanion owner companion) := by
  have hgrows : c.Grows (c.rememberCompanion owner companion) := ⟨id, id⟩
  refine ⟨h.carrier, fun {d id} hd => ?_, h.filed, fun {id e} he => ?_⟩
  · obtain ⟨o, ho, hholds⟩ := h.entry hd
    exact ⟨o, ho, hholds.mono hgrows⟩
  · exact (h.held he).imp fun _ hholds => hholds.mono hgrows

theorem ResolveM.Safe.rememberCompanion {r : Resolver} (owner : ElementId)
    (companion : Option ElementId) : Safe r (modify (·.rememberCompanion owner companion)) :=
  fun _ h => ⟨h.rememberCompanion owner companion, id, id⟩

namespace Resolver

open ResolveM

variable {r : Resolver} {c : Cache}

theorem keeping_resolve (linked : r.host.Linked) (acyclic : r.host.Acyclic) (d : DeclId) :
    Keeping r (r.resolve d) := by
  intro c h
  have hagrees := agrees_resolve linked acyclic d c h
  unfold after
  generalize r.resolve d c = x at hagrees
  generalize r.origin d = y at hagrees
  cases hagrees with
  | found keeps _ _ => exact keeps
  | absent keeps => exact keeps
  | failed keeps => exact keeps

theorem keeping_metadataCarrier (linked : r.host.Linked) (acyclic : r.host.Acyclic) (d : DeclId) :
    Keeping r (r.metadataCarrier d) := by
  intro c h
  obtain ⟨c', hrun, -, hkeeps⟩ := metadataCarrier_spec linked acyclic h d
  unfold after
  rw [hrun]
  exact hkeeps

theorem safe_companion (linked : r.host.Linked) (acyclic : r.host.Acyclic) (id : ElementId) :
    Safe r (r.companion id) := by
  unfold companion
  refine Keeping.get.safe.bind fun cache => ?_
  split
  · exact (Keeping.pure _).safe
  split
  · exact (Keeping.pure _).safe
  split
  · exact (Safe.rememberCompanion _ _).bind fun _ => (Keeping.pure _).safe
  unfold resolveCompanion
  split
  · split
    · exact (Keeping.throw _).safe
    · refine (keeping_resolve linked acyclic _).safe.bind fun companion => ?_
      exact (Safe.rememberCompanion _ _).bind fun _ => (Keeping.pure _).safe
  · exact (Keeping.throw _).safe

theorem keeping_enclosingElement (linked : r.host.Linked) (acyclic : r.host.Acyclic)
    (id : ElementId) : Keeping r (r.enclosingElement id) := by
  unfold enclosingElement
  refine Keeping.get.bind fun cache => ?_
  split
  · exact .pure _
  split
  · exact .pure _
  split
  · exact .pure _
  refine (keeping_resolve linked acyclic _).bind fun owner => ?_
  split
  · exact .pure _
  · exact .throw _

theorem keeping_enclosedElements (linked : r.host.Linked) (acyclic : r.host.Acyclic)
    (id : ElementId) : Keeping r (r.enclosedElements id) := by
  unfold enclosedElements
  refine Keeping.get.bind fun cache => ?_
  split
  · exact .pure _
  split
  · exact .pure _
  split
  · exact .pure _
  refine .foldlM (fun found d => ?_) _ _
  refine (keeping_resolve linked acyclic d).bind fun id => ?_
  split <;> exact .pure _

/-- The cache that an operation leaves, also where it fails. -/
def run (r : Resolver) (c : Cache) : Operation → Cache
  | .resolve d => after (r.resolve d) c
  | .metadataCarrier d => after (r.metadataCarrier d) c
  | .companion id => after (r.companion id) c
  | .enclosingElement id => after (r.enclosingElement id) c
  | .enclosedElements id => after (r.enclosedElements id) c

/-- The cache that operations leave behind, one after the other. -/
def runAll (r : Resolver) (ops : List Operation) : Cache :=
  ops.foldl r.run {}

/-- Only asking for a companion may add one to those that the cache has. -/
theorem keeps_run (linked : r.host.Linked) (acyclic : r.host.Acyclic) (h : r.Faithful c)
    {op : Operation} (hop : ∀ id, op ≠ .companion id) : r.Keeps c (r.run c op) := by
  cases op with
  | resolve d => exact keeping_resolve linked acyclic d c h
  | metadataCarrier d => exact keeping_metadataCarrier linked acyclic d c h
  | companion id => exact absurd rfl (hop id)
  | enclosingElement id => exact keeping_enclosingElement linked acyclic id c h
  | enclosedElements id => exact keeping_enclosedElements linked acyclic id c h

theorem faithful_run (linked : r.host.Linked) (acyclic : r.host.Acyclic) (h : r.Faithful c)
    (op : Operation) : r.Faithful (r.run c op) ∧ c.Grows (r.run c op) := by
  by_cases hop : ∀ id, op ≠ .companion id
  · have hkeeps := keeps_run linked acyclic h hop
    exact ⟨hkeeps.faithful, hkeeps.grows⟩
  · obtain ⟨id, rfl⟩ := not_forall_not.mp hop
    exact safe_companion linked acyclic id c h

theorem faithful_foldl (linked : r.host.Linked) (acyclic : r.host.Acyclic) (h : r.Faithful c)
    (ops : List Operation) : r.Faithful (ops.foldl r.run c) ∧ c.Grows (ops.foldl r.run c) := by
  induction ops generalizing c with
  | nil => exact ⟨h, .refl c⟩
  | cons op ops ih =>
    obtain ⟨hfaithful, hgrows⟩ := faithful_run linked acyclic h op
    obtain ⟨hfaithful', hgrows'⟩ := ih hfaithful
    exact ⟨hfaithful', hgrows.trans hgrows'⟩

/-- Every cache that operations lead to is faithful. -/
theorem faithful_runAll (linked : r.host.Linked) (acyclic : r.host.Acyclic) (ops : List Operation) :
    r.Faithful (r.runAll ops) :=
  (faithful_foldl linked acyclic (faithful_empty r) ops).1

end Resolver

namespace DeclTree

/-- A class with a function `f(x)` that has a type parameter, and with the sibling that leaves the
parameter out. -/
def overloaded (metadata : ClassMetadata) : DeclTree :=
  let t := ({} : DeclTree).addPackage "p"
  let t := t.addType ⟨0⟩ .classType "C"
  let t := t.addMethod ⟨1⟩ "f" .void
  let t := t.addParameter ⟨2⟩ "x" .int
  let t := t.addTypeParameter ⟨2⟩ "T"
  let t := t.addMethod ⟨1⟩ "f" .void
  let t := t.addTypeParameter ⟨5⟩ "T"
  t.attach ⟨1⟩ (.ofClass metadata)

theorem built_overloaded (metadata : ClassMetadata) : (overloaded metadata).Built := by
  apply Built.attach
  iterate 7 apply Built.add
  exact .empty

theorem acyclic_overloaded (metadata : ClassMetadata) : (overloaded metadata).toHost.Acyclic :=
  acyclic_of_isAscending rfl

end DeclTree

/-- The metadata of the class with the function. -/
def ClassMetadata.overloaded : ClassMetadata where
  strings := .ofList ["p/C", "f", "x", "kotlin/Int", "kotlin/Unit", "T"]
  descriptor :=
    { qualifiedName := ⟨0⟩, kind := .regular
      functions := [
        { name := ⟨1⟩, typeParameters := [{ id := 0, name := ⟨5⟩ }]
          valueParameters := [{ name := ⟨2⟩, declaresDefault := true, type := .named ⟨3⟩ }]
          returnType := .named ⟨4⟩ }] }

/-- What is found out about the class when the type parameter of the sibling is resolved. -/
def Cache.overloaded : Cache where
  elements := #[
    .type
      { host := ⟨1⟩, qualifiedName := "p.C", packageName := "p", kind := .regular
        modality := .final, visibility := .everyone, flags := ⟨0⟩, companionName := none
        manglingSuffix := "main", functions := [⟨1⟩] },
    .function
      { host := ⟨2⟩, overloads := [⟨5⟩], owner := ⟨0⟩, name := "f", signature := "f(I)V"
        modality := .final, visibility := .everyone, flags := ⟨0⟩, isExtension := false
        parameters := [⟨2⟩], typeParameters := [⟨3⟩] },
    .parameter
      { host := ⟨3⟩, overloadHosts := [], owner := ⟨1⟩, name := "x", position := 0
        hasDefault := true, isVararg := false },
    .typeParameter
      { host := ⟨4⟩, owner := ⟨1⟩, name := "T", variance := .invariant, reified := false }]
  byDecl := ⟨[(⟨6⟩, ⟨3⟩), (⟨4⟩, ⟨3⟩), (⟨3⟩, ⟨2⟩), (⟨5⟩, ⟨1⟩), (⟨2⟩, ⟨1⟩), (⟨1⟩, ⟨0⟩)]⟩
  carriers := ⟨[(⟨6⟩, some ⟨1⟩), (⟨5⟩, some ⟨1⟩), (⟨1⟩, some ⟨1⟩)]⟩

set_option maxRecDepth 20000 in
theorem Resolver.resolve_overloaded :
    resolve ⟨(DeclTree.overloaded .overloaded).toHost, {}⟩ ⟨6⟩ {} =
      .ok (some ⟨3⟩) Cache.overloaded := by
  cbv

/-- The cache that any operations leave once the type parameter is resolved. -/
theorem Resolver.runAll_overloaded (ops : List Operation) :
    runAll ⟨(DeclTree.overloaded .overloaded).toHost, {}⟩ (.resolve ⟨6⟩ :: ops) =
      ops.foldl (run ⟨(DeclTree.overloaded .overloaded).toHost, {}⟩) Cache.overloaded := by
  simp only [runAll, List.foldl_cons, run, ResolveM.after, resolve_overloaded]

end Correspondence
