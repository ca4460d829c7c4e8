import Correspondence.Proofs.Matched

/-!
# How declarations come to their origins

A declaration has its origin by itself, by a claim of a batch, by its name among the parameters of a
sibling, or because nothing of the source corresponds to it.
-/

namespace Correspondence.Resolver

variable {r : Resolver} {d : DeclId}

/-- How a declaration comes to its origin. -/
inductive Arises (r : Resolver) (d : DeclId) : Origin → Prop
  | package (hkind : r.host.kind d = .package) : Arises r d (.package d)
  | implicit (kind : ImplicitKind) (hkind : (r.host.kind d).isType) : Arises r d (.implicit d kind)
  | implicitIn {parent : DeclId} {owner : Origin} (kind : ImplicitKind)
      (hparent : r.host.enclosing d = some parent) (howner : r.origin parent = .ok (some owner))
      (hparameter : r.host.kind d = .parameter →
        isImplicitParameter r.host parent d (r.element? owner))
      (htypeParameter : r.host.kind d = .typeParameter →
        ∀ e, r.element? owner = some e → e.overloads = []) :
      Arises r d (.implicitIn owner d kind)
  | claimed {container : DeclId} {b : Batch} {place : ElementId} (hb : r.batch? container = some b)
      (hd : b.claims.find? d = some place) : Arises r d (.staged container place)
  | namedParameter {parent container : DeclId} {b : Batch} {i place : ElementId} {e : Element}
      {ids : List ElementId} (hparent : r.host.enclosing d = some parent)
      (howner : r.origin parent = .ok (some (.staged container i)))
      (hb : r.batch? container = some b) (he : b.get? i = some e) (hd : b.claims.find? d = none)
      (hkind : r.host.kind d = .parameter)
      (himplicit : isImplicitParameter r.host parent d (some e) = false)
      (hids : e.parameters? = some ids) (hplace : place ∈ ids) :
      Arises r d (.staged container place)
  | namedTypeParameter {parent container : DeclId} {b : Batch} {i place : ElementId} {e : Element}
      {ids : List ElementId} (hparent : r.host.enclosing d = some parent)
      (howner : r.origin parent = .ok (some (.staged container i)))
      (hb : r.batch? container = some b) (he : b.get? i = some e) (hd : b.claims.find? d = none)
      (hkind : r.host.kind d = .typeParameter)
      (hexecutable : (r.host.kind parent).isType ∨ r.host.kind parent = .method)
      (hids : e.typeParameters? = some ids) (hplace : place ∈ ids) :
      Arises r d (.staged container place)

private theorem originIn_eq_ok {enclosing : DeclId → Except ResolveError (Option Origin)}
    {unclaimed : DeclId → Origin → Except ResolveError (Option Origin)} {o : Origin}
    (h : r.originIn enclosing d unclaimed = .ok (some o)) :
    ∃ parent owner, r.host.enclosing d = some parent ∧ enclosing parent = .ok (some owner) ∧
      (r.claimed? d owner = some o ∨
        r.claimed? d owner = none ∧ unclaimed parent owner = .ok (some o)) := by
  unfold originIn at h
  cases hparent : r.host.enclosing d with
  | none =>
    rw [hparent] at h
    cases h
  | some parent =>
    rw [hparent] at h
    obtain ⟨owner?, howner, h⟩ := Except.bind_eq_ok_iff.mp h
    cases owner? with
    | none => cases h
    | some owner =>
      refine ⟨parent, owner, rfl, howner, ?_⟩
      dsimp only at h
      cases hclaimed : r.claimed? d owner with
      | some o' =>
        rw [hclaimed] at h
        exact .inl (congrArg some (Option.some.inj (Except.ok.inj h)))
      | none =>
        rw [hclaimed] at h
        exact .inr ⟨rfl, h⟩

private theorem arises_of_claimed? {owner o : Origin} (h : r.claimed? d owner = some o) :
    Arises r d o := by
  obtain ⟨place, hplace, rfl⟩ := Option.map_eq_some_iff.mp h
  obtain ⟨b, hb, hd⟩ := Option.bind_eq_some_iff.mp hplace
  cases owner with
  | staged container i => exact .claimed hb hd
  | _ => cases hb

/-- A name leads to a place in the batch of the owner. -/
private theorem namedIn?_eq_some {owner o : Origin} {e : Element} {ids : List ElementId}
    {name : String} (he : r.element? owner = some e)
    (hids : e.parameters? = some ids ∨ e.typeParameters? = some ids)
    (hclaimed : r.claimed? d owner = none) (h : r.namedIn? ids name owner = some o) :
    ∃ container i b place, owner = .staged container i ∧ r.batch? container = some b ∧
      b.get? i = some e ∧ b.claims.find? d = none ∧ place ∈ ids ∧ o = .staged container place := by
  obtain ⟨place, hplace, rfl⟩ := Option.map_eq_some_iff.mp h
  have hmem := List.mem_of_find?_eq_some hplace
  cases owner with
  | staged container i =>
    obtain ⟨b, hb, hget⟩ := Option.bind_eq_some_iff.mp he
    refine ⟨container, i, b, place, rfl, hb, hget, ?_, hmem, rfl⟩
    simpa [claimed?, batchOf?, hb] using hclaimed
  | _ =>
    obtain rfl := Option.some.inj he
    rcases hids with hids | hids <;> cases hids

private theorem arises_of_unclaimedParameter {parent : DeclId} {owner o : Origin}
    (hkind : r.host.kind d = .parameter) (hparent : r.host.enclosing d = some parent)
    (howner : r.origin parent = .ok (some owner)) (hclaimed : r.claimed? d owner = none)
    (h : r.unclaimedParameter d parent owner = .ok (some o)) : Arises r d o := by
  unfold unclaimedParameter at h
  dsimp only at h
  split at h
  · rename_i himplicit
    obtain rfl := Option.some.inj (Except.ok.inj h)
    exact .implicitIn _ hparent howner (fun _ => himplicit) (by simp [hkind])
  · rename_i himplicit
    split at h
    · rename_i o' hnamed
      obtain rfl := Option.some.inj (Except.ok.inj h)
      cases he : r.element? owner with
      | none => simp [he, isImplicitParameter] at himplicit
      | some e =>
        cases hids : e.parameters? with
        | none => simp [he, hids, namedIn?] at hnamed
        | some ids =>
          simp only [he, Option.bind_some, hids, Option.getD_some] at hnamed
          obtain ⟨container, i, b, place, rfl, hb, hget, hd, hplace, rfl⟩ :=
            namedIn?_eq_some he (.inl hids) hclaimed hnamed
          rw [he, Bool.not_eq_true] at himplicit
          exact .namedParameter hparent howner hb hget hd hkind himplicit hids hplace
    · cases h

private theorem arises_of_unclaimedTypeParameter {parent : DeclId} {owner o : Origin}
    (hkind : r.host.kind d = .typeParameter) (hparent : r.host.enclosing d = some parent)
    (hexecutable : (r.host.kind parent).isType ∨ r.host.kind parent = .method)
    (howner : r.origin parent = .ok (some owner)) (hclaimed : r.claimed? d owner = none)
    (h : r.unclaimedTypeParameter d parent owner = .ok (some o)) : Arises r d o := by
  unfold unclaimedTypeParameter at h
  dsimp only at h
  split at h
  · rename_i o' hnamed
    obtain rfl := Option.some.inj (Except.ok.inj h)
    cases he : r.element? owner with
    | none => simp [he, namedIn?] at hnamed
    | some e =>
      cases hids : e.typeParameters? with
      | none => simp [he, hids, namedIn?] at hnamed
      | some ids =>
        simp only [he, Option.bind_some, hids, Option.getD_some] at hnamed
        obtain ⟨container, i, b, place, rfl, hb, hget, hd, hplace, rfl⟩ :=
          namedIn?_eq_some he (.inr hids) hclaimed hnamed
        exact .namedTypeParameter hparent howner hb hget hd hkind hexecutable hids hplace
  · unfold unnamedTypeParameter at h
    dsimp only at h
    split at h
    · cases h
    · split at h
      · rename_i p he
        obtain rfl := Option.some.inj (Except.ok.inj h)
        refine .implicitIn _ hparent howner (by simp [hkind]) fun _ e he' => ?_
        obtain rfl := Option.some.inj (he.symm.trans he')
        rfl
      · rename_i p he
        obtain rfl := Option.some.inj (Except.ok.inj h)
        refine .implicitIn _ hparent howner (by simp [hkind]) fun _ e he' => ?_
        obtain rfl := Option.some.inj (he.symm.trans he')
        rfl
      · cases h

private theorem arises_of_stagedOrigin (linked : r.host.Linked) (hkind : (r.host.kind d).isType)
    {build : BuildM ElementId} (hbuild : r.build? d = some build) {o : Origin}
    (h : stagedOrigin d build = .ok (some o)) : Arises r d o := by
  unfold stagedOrigin at h
  cases hmade : build { base := 0 } with
  | error e =>
    rw [hmade] at h
    cases h
  | ok made =>
    rw [hmade] at h
    obtain rfl := Option.some.inj (Except.ok.inj h)
    obtain ⟨hb, hplace⟩ := batch?_of_build? linked hkind hbuild hmade
    exact .claimed hb (hplace ▸ claim_of_batch? linked hb)

private theorem arises_of_implicitTypeOrigin (hkind : (r.host.kind d).isType) {kind : ImplicitKind}
    {o : Origin} (h : r.implicitTypeOrigin r.origin d kind = .ok (some o)) : Arises r d o := by
  unfold implicitTypeOrigin at h
  cases hparent : r.host.enclosing d with
  | none =>
    rw [hparent] at h
    obtain rfl := Option.some.inj (Except.ok.inj h)
    exact .implicit kind hkind
  | some parent =>
    rw [hparent] at h
    obtain ⟨owner?, howner, h⟩ := Except.bind_eq_ok_iff.mp h
    obtain rfl := Option.some.inj (Except.ok.inj h)
    cases owner? with
    | none => exact .implicit kind hkind
    | some owner =>
      refine .implicitIn kind hparent howner (fun hk => ?_) fun hk => ?_ <;>
        (rw [hk] at hkind; cases hkind)

private theorem arises_of_typeOrigin (linked : r.host.Linked) (hkind : (r.host.kind d).isType)
    {o : Origin} (h : r.typeOrigin r.origin d = .ok (some o)) : Arises r d o := by
  unfold typeOrigin at h
  split at h
  · rename_i hmetadata
    exact arises_of_stagedOrigin linked hkind (build?_of_ofClass hmetadata) h
  · rename_i hmetadata
    exact arises_of_stagedOrigin linked hkind (build?_of_fileFacade hmetadata) h
  · cases h
  · cases h
  · exact arises_of_implicitTypeOrigin hkind h
  · split at h
    · exact arises_of_implicitTypeOrigin hkind h
    · cases h

private theorem arises_of_sourceOrigin (linked : r.host.Linked) {o : Origin}
    (h : r.sourceOrigin r.origin d = .ok (some o)) : Arises r d o := by
  unfold sourceOrigin at h
  cases hkind : r.host.kind d <;> simp only [hkind] at h
  case classType | interfaceType | enumType | annotationType =>
    exact arises_of_typeOrigin linked (by rw [hkind]; rfl) h
  case method | constructor | field | enumConstant | instanceInit | staticInit =>
    obtain ⟨parent, owner, hparent, howner, hclaimed | ⟨-, h⟩⟩ := originIn_eq_ok h
    · exact arises_of_claimed? hclaimed
    · obtain rfl := Option.some.inj (Except.ok.inj h)
      exact .implicitIn _ hparent howner (by simp [hkind]) (by simp [hkind])
  case parameter =>
    obtain ⟨parent, owner, hparent, howner, hclaimed | ⟨hclaimed, h⟩⟩ := originIn_eq_ok h
    · exact arises_of_claimed? hclaimed
    · exact arises_of_unclaimedParameter hkind hparent howner hclaimed h
  case typeParameter =>
    unfold typeParameterOrigin at h
    split at h
    · cases h
    rename_i parent hparent
    split at h
    · cases h
    rename_i hexecutable
    obtain ⟨parent', owner, hparent', howner, hclaimed | ⟨hclaimed, h⟩⟩ := originIn_eq_ok h
    · exact arises_of_claimed? hclaimed
    · obtain rfl := Option.some.inj (hparent.symm.trans hparent')
      refine arises_of_unclaimedTypeParameter hkind hparent ?_ howner hclaimed h
      simpa [Classical.or_iff_not_imp_left] using hexecutable
  all_goals cases h

theorem arises_of_origin (linked : r.host.Linked) (acyclic : r.host.Acyclic) {o : Origin}
    (h : r.origin d = .ok (some o)) : Arises r d o := by
  rw [origin_eq linked acyclic] at h
  unfold originStep at h
  split at h
  · obtain rfl := Option.some.inj (Except.ok.inj h)
    exact .package (by assumption)
  · cases h
  · split at h
    · cases h
    · exact arises_of_sourceOrigin linked h

end Correspondence.Resolver
