import Correspondence.Proofs.Runs

/-!
# What belongs to the source

The nearest declaration with metadata is the first one that a walk outwards comes to, also where it
is not looked for again. A declaration is answered by none only if there is no such declaration.
-/

namespace Correspondence

namespace Host

variable {host : Host} {d x : DeclId}

/-- Whether a declaration is on the chain of another one: it is that one, or encloses it, directly or
through others. -/
def OnChain (host : Host) (d x : DeclId) : Prop :=
  Relation.ReflTransGen (fun y owner => host.enclosing y = some owner) d x

/-- Whether only types carry metadata. -/
def DescribesTypesOnly (host : Host) : Prop :=
  ∀ x, (host.metadata x).isSome → (host.kind x).isType

/-- The walk outwards to the first declaration with metadata, which ends without one where nothing
encloses the last declaration. -/
inductive Walk (host : Host) : DeclId → Option DeclId → Prop
  | found {d : DeclId} (hd : (host.metadata d).isSome) : Walk host d (some d)
  | onwards {d owner : DeclId} {carrier : Option DeclId} (hd : host.metadata d = none)
      (howner : host.enclosing d = some owner) (hwalk : Walk host owner carrier) :
      Walk host d carrier
  | ended {d : DeclId} (hd : host.metadata d = none) (howner : host.enclosing d = none) :
      Walk host d none

theorem Walk.eq_none_iff {carrier : Option DeclId} (h : host.Walk d carrier) :
    carrier = none ↔ ∀ x, host.OnChain d x → host.metadata x = none := by
  induction h with
  | @found d hd =>
    refine iff_of_false (Option.some_ne_none _) fun hall => ?_
    rw [hall d .refl] at hd
    cases hd
  | @onwards d owner carrier hd howner hwalk ih =>
    rw [ih]
    constructor
    · intro hall x hx
      rcases hx.cases_head with rfl | ⟨owner', howner', hx⟩
      · exact hd
      · obtain rfl := Option.some.inj (howner.symm.trans howner')
        exact hall x hx
    · exact fun hall x hx => hall x (.head howner hx)
  | @ended d hd howner =>
    refine iff_of_true rfl fun x hx => ?_
    rcases hx.cases_head with rfl | ⟨owner', howner', -⟩
    · exact hd
    · rw [howner] at howner'
      cases howner'

theorem walk_carrier (linked : host.Linked) (acyclic : host.Acyclic) (d : DeclId) :
    host.Walk d (host.carrier d) := by
  induction d using acyclic.induction linked with
  | step d ih =>
  rw [acyclic.carrier_eq linked]
  split
  · exact .found (by assumption)
  · rename_i hd
    have hd : host.metadata d = none := Option.not_isSome_iff_eq_none.mp hd
    cases howner : host.enclosing d with
    | none => exact .ended hd howner
    | some owner => exact .onwards hd howner (ih owner howner)

end Host

/-- Whether only the types of a tree carry metadata. -/
def DeclTree.describesTypesOnly (t : DeclTree) : Bool :=
  t.decls.toList.all fun d => d.metadata.isNone || d.kind.isType

theorem DeclTree.describesTypesOnly_toHost {t : DeclTree} (h : t.describesTypesOnly) :
    t.toHost.DescribesTypesOnly := by
  intro x hx
  cases hd : t.get? x with
  | none => simp [toHost, hd] at hx
  | some d =>
    have hmem : d ∈ t.decls.toList := Array.mem_toList_iff.mpr (Array.mem_of_getElem? hd)
    have hall := List.all_eq_true.mp h d hmem
    simp only [toHost, hd, Option.bind_some, Option.map_some, Option.getD_some] at hx ⊢
    simpa [Option.isSome_iff_ne_none.mp hx] using hall

namespace Resolver

variable {r : Resolver} {d : DeclId}

private theorem found_ne_none {o : Origin} :
    (.ok (some o) : Except ResolveError (Option Origin)) ≠ .ok none := by
  intro h
  cases h

private theorem error_ne_none {e : ResolveError} :
    (.error e : Except ResolveError (Option Origin)) ≠ .ok none := by
  intro h
  cases h

/-- What belongs to something else is part of the source where that is. -/
private theorem originIn_ne_none {enclosing : DeclId → Except ResolveError (Option Origin)}
    {unclaimed : DeclId → Origin → Except ResolveError (Option Origin)} {parent : DeclId}
    (hparent : r.host.enclosing d = some parent) (henclosing : enclosing parent ≠ .ok none)
    (hunclaimed : ∀ owner, unclaimed parent owner ≠ .ok none) :
    r.originIn enclosing d unclaimed ≠ .ok none := by
  intro h
  unfold originIn at h
  rw [hparent] at h
  obtain ⟨owner?, howner, h⟩ := Except.bind_eq_ok_iff.mp h
  cases owner? with
  | none => exact henclosing howner
  | some owner =>
    dsimp only at h
    split at h
    · cases h
    · exact hunclaimed owner h

private theorem unclaimedParameter_ne_none (executable : DeclId) (owner : Origin) :
    r.unclaimedParameter d executable owner ≠ .ok none := by
  intro h
  unfold unclaimedParameter at h
  dsimp only at h
  split at h
  · cases h
  · split at h <;> cases h

private theorem unclaimedTypeParameter_ne_none (parent : DeclId) (owner : Origin) :
    r.unclaimedTypeParameter d parent owner ≠ .ok none := by
  intro h
  unfold unclaimedTypeParameter unnamedTypeParameter at h
  dsimp only at h
  split at h
  · cases h
  · split at h
    · cases h
    · split at h <;> cases h

private theorem implicitTypeOrigin_ne_none
    {enclosing : DeclId → Except ResolveError (Option Origin)} (kind : ImplicitKind) :
    r.implicitTypeOrigin enclosing d kind ≠ .ok none := by
  intro h
  unfold implicitTypeOrigin at h
  cases hparent : r.host.enclosing d with
  | none =>
    rw [hparent] at h
    cases h
  | some parent =>
    rw [hparent] at h
    obtain ⟨owner, -, h⟩ := Except.bind_eq_ok_iff.mp h
    cases h

private theorem stagedOrigin_ne_none (build : BuildM ElementId) :
    stagedOrigin d build ≠ .ok none := by
  unfold stagedOrigin
  cases build { base := 0 } with
  | error e => exact error_ne_none
  | ok made => exact found_ne_none

/-- A type is part of the source or an error. -/
private theorem typeOrigin_ne_none {enclosing : DeclId → Except ResolveError (Option Origin)} :
    r.typeOrigin enclosing d ≠ .ok none := by
  unfold typeOrigin
  split
  · exact stagedOrigin_ne_none _
  · exact stagedOrigin_ne_none _
  · exact error_ne_none
  · exact error_ne_none
  · exact implicitTypeOrigin_ne_none _
  · split
    · exact implicitTypeOrigin_ne_none _
    · exact error_ne_none

/-- Where only types carry metadata, what has metadata around it is part of the source, or an
error. -/
private theorem sourceOrigin_ne_none {enclosing : DeclId → Except ResolveError (Option Origin)}
    (hparent : (r.host.kind d).isType = false →
      ∃ parent, r.host.enclosing d = some parent ∧ enclosing parent ≠ .ok none) :
    r.sourceOrigin enclosing d ≠ .ok none := by
  unfold sourceOrigin
  cases hkind : r.host.kind d <;> rw [hkind] at hparent
  case classType | interfaceType | enumType | annotationType => exact typeOrigin_ne_none
  case method | constructor | field | enumConstant | instanceInit | staticInit =>
    obtain ⟨parent, hparent, henclosing⟩ := hparent rfl
    exact originIn_ne_none hparent henclosing fun _ => found_ne_none
  case parameter =>
    obtain ⟨parent, hparent, henclosing⟩ := hparent rfl
    exact originIn_ne_none hparent henclosing (unclaimedParameter_ne_none parent)
  case typeParameter =>
    obtain ⟨parent, hparent, henclosing⟩ := hparent rfl
    simp only [typeParameterOrigin, hparent]
    split
    · exact error_ne_none
    · exact originIn_ne_none hparent henclosing (unclaimedTypeParameter_ne_none parent)
  all_goals exact error_ne_none

/-- A declaration has no origin only if it is neither a package nor a module and nothing around it
has metadata. -/
theorem origin_eq_none_iff (linked : r.host.Linked) (acyclic : r.host.Acyclic)
    (hmetadata : r.host.DescribesTypesOnly) (d : DeclId) :
    r.origin d = .ok none ↔
      r.host.kind d ≠ .package ∧ r.host.kind d ≠ .moduleDecl ∧ r.host.carrier d = none := by
  induction d using acyclic.induction linked with
  | step d ih =>
  have hstep : r.origin d = r.originStep r.origin d := origin_eq linked acyclic d
  unfold originStep at hstep
  rw [hstep]
  have carried (hcarrier : r.host.carrier d ≠ none) : r.sourceOrigin r.origin d ≠ .ok none := by
    apply sourceOrigin_ne_none
    intro hkind
    have hd : (r.host.metadata d).isSome = false := by
      by_contra hd
      rw [hmetadata d (by simpa only [Bool.not_eq_false] using hd)] at hkind
      cases hkind
    rw [acyclic.carrier_eq linked, hd] at hcarrier
    cases howner : r.host.enclosing d with
    | none => simp [howner] at hcarrier
    | some owner =>
      refine ⟨owner, rfl, fun hnone => hcarrier ?_⟩
      obtain ⟨-, -, hnone⟩ := (ih owner howner).mp hnone
      simp [howner, hnone]
  cases hcarrier : r.host.carrier d with
  | none =>
    cases hkind : r.host.kind d <;>
      simp [pure, Except.pure, throw, throwThe, MonadExceptOf.throw]
  | some carrier =>
    have hsource := carried (by simp [hcarrier])
    cases hkind : r.host.kind d <;>
      simp [hsource, pure, Except.pure, throw, throwThe, MonadExceptOf.throw]

/-- Where only types carry metadata, a declaration is answered by none exactly if it is neither a
package nor a module and nothing on its chain carries metadata; and the nearest declaration with
metadata is the one that a walk outwards comes to, whatever was looked for before. -/
theorem resolve_eq_none_iff {t : DeclTree} (built : t.Built) (acyclic : t.toHost.Acyclic)
    (hmetadata : t.toHost.DescribesTypesOnly) (config : Config) (ops : List Operation)
    (d : DeclId) :
    let r : Resolver := ⟨t.toHost, config⟩
    let c := r.runAll ops
    ((∃ c', r.resolve d c = .ok none c') ↔
      r.host.kind d ≠ .package ∧ r.host.kind d ≠ .moduleDecl ∧
        ∀ x, r.host.OnChain d x → r.host.metadata x = none) ∧
    ∃ carrier c', r.metadataCarrier d c = .ok carrier c' ∧ r.host.Walk d carrier := by
  intro r c
  have linked : r.host.Linked := built.linked.toHost
  have h : r.Faithful c := faithful_runAll linked acyclic ops
  have hwalk := Host.walk_carrier linked acyclic d
  constructor
  · rw [← hwalk.eq_none_iff, ← origin_eq_none_iff linked acyclic hmetadata]
    have hagrees := agrees_resolve linked acyclic d c h
    generalize r.resolve d c = x at hagrees
    generalize r.origin d = y at hagrees
    cases hagrees with
    | found keeps entry holds => simp
    | absent keeps => simp
    | failed keeps => simp
  · obtain ⟨c', hcarrier, -⟩ := metadataCarrier_spec linked acyclic h d
    exact ⟨_, c', hcarrier, hwalk⟩

/-- Once the class is resolved, a number that was never given is answered by none and a method of the
class is not. -/
theorem resolve_eq_none_overloaded :
    let r : Resolver := ⟨(DeclTree.overloaded .overloaded).toHost, {}⟩
    let c := r.runAll [.resolve ⟨6⟩]
    (∃ c', r.resolve ⟨7⟩ c = .ok none c') ∧ (¬ ∃ c', r.resolve ⟨5⟩ c = .ok none c') ∧
      ∃ carrier c', r.metadataCarrier ⟨5⟩ c = .ok carrier c' ∧ r.host.Walk ⟨5⟩ carrier := by
  intro r c
  have hmetadata := DeclTree.describesTypesOnly_toHost (t := .overloaded .overloaded) rfl
  have hnone := resolve_eq_none_iff (DeclTree.built_overloaded .overloaded)
    (DeclTree.acyclic_overloaded .overloaded) hmetadata {} [.resolve ⟨6⟩]
  have hunknown : ∀ x, r.host.OnChain ⟨7⟩ x → r.host.metadata x = none := by
    intro x hx
    rcases hx.cases_head with rfl | ⟨owner, howner, -⟩
    · rfl
    · cases howner
  have hclass : r.host.OnChain ⟨5⟩ ⟨1⟩ := .single rfl
  obtain ⟨hmethod, hcarrier⟩ := hnone ⟨5⟩
  refine ⟨(hnone ⟨7⟩).1.mpr ⟨by decide, by decide, hunknown⟩, fun h => ?_, hcarrier⟩
  obtain ⟨-, -, hall⟩ := hmethod.mp h
  cases hall ⟨1⟩ hclass

end Resolver

end Correspondence
