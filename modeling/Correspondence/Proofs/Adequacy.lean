import Correspondence.Proofs.Faithful
import Mathlib.Data.List.Find

/-!
# Resolving with a faithful cache

With any faithful cache, resolving a declaration answers with an element of its origin, or fails as
the search for the origin fails, and leaves a faithful cache behind.
-/

namespace Correspondence

namespace Cache

variable {c c' : Cache}

/-- Whether two caches differ in the carriers at most. -/
structure SameElements (c c' : Cache) : Prop where
  elements : c'.elements = c.elements
  byDecl : c'.byDecl = c.byDecl
  companions : c'.companions = c.companions

theorem SameElements.grows (h : c.SameElements c') : c.Grows c' :=
  ⟨fun he => by rw [element?, h.elements]; exact he, fun hd => by rw [get?, h.byDecl]; exact hd⟩

end Cache

theorem ResolveM.get_bind {α : Type} (f : Cache → ResolveM α) (c : Cache) :
    (get >>= f : ResolveM α) c = f c c := rfl

namespace Resolver

variable {r : Resolver} {c c' c'' : Cache} {d : DeclId}

/-- What resolving does to a faithful cache. -/
structure Keeps (r : Resolver) (c c' : Cache) : Prop where
  faithful : r.Faithful c'
  grows : c.Grows c'
  companions : c'.companions = c.companions

theorem Keeps.trans (h : r.Keeps c c') (h' : r.Keeps c' c'') : r.Keeps c c'' :=
  ⟨h'.faithful, h.grows.trans h'.grows, h'.companions.trans h.companions⟩

theorem Faithful.keeps (h : r.Faithful c) : r.Keeps c c :=
  ⟨h, .refl c, rfl⟩

theorem Faithful.rememberCarrier (h : r.Faithful c) (d : DeclId) :
    r.Faithful (c.rememberCarrier d (r.host.carrier d)) := by
  have hgrows : c.Grows (c.rememberCarrier d (r.host.carrier d)) := ⟨id, id⟩
  constructor
  · intro x y hx
    rw [Cache.rememberCarrier, Lookup.find?_insert] at hx
    split at hx
    · rename_i hxd
      rw [hxd, Option.some.inj hx]
    · exact h.carrier hx
  · intro x id hx
    obtain ⟨o, ho, hholds⟩ := h.entry hx
    exact ⟨o, ho, hholds.mono hgrows⟩
  · exact h.filed
  · intro id e he
    exact (h.held he).imp fun _ hholds => hholds.mono hgrows

/-- The nearest declaration with metadata where it is not known yet. -/
private def carrierStep (host : Host) (n : Nat) (d : DeclId) (c : Cache) : Option DeclId × Cache :=
  if (host.metadata d).isSome then (some d, c)
  else
    match host.enclosing d with
    | some parent => carrierWithin host n parent c
    | none => (none, c)

private theorem carrierWithin_spec (linked : r.host.Linked) (acyclic : r.host.Acyclic) (n : Nat)
    (hn : r.host.EndsWithin n d) (h : r.Faithful c) :
    ∃ c', carrierWithin r.host n d c = (r.host.carrier d, c') ∧ c.SameElements c' ∧
      r.Faithful c' := by
  induction n generalizing d c with
  | zero => exact hn.elim
  | succ n ih =>
    unfold carrierWithin
    cases hknown : c.carriers.find? d with
    | some known =>
      obtain rfl := h.carrier hknown
      exact ⟨c, rfl, ⟨rfl, rfl, rfl⟩, h⟩
    | none =>
      have hfound : ∃ c₁, carrierStep r.host n d c = (r.host.carrier d, c₁) ∧
          c.SameElements c₁ ∧ r.Faithful c₁ := by
        unfold carrierStep
        rw [acyclic.carrier_eq linked]
        split
        · exact ⟨c, rfl, ⟨rfl, rfl, rfl⟩, h⟩
        · cases howner : r.host.enclosing d with
          | none => exact ⟨c, rfl, ⟨rfl, rfl, rfl⟩, h⟩
          | some owner => exact ih (hn owner howner) h
      obtain ⟨c₁, hpair, hsame, hfaithful⟩ := hfound
      refine ⟨c₁.rememberCarrier d (r.host.carrier d), ?_, ?_, hfaithful.rememberCarrier d⟩
      · exact congrArg (fun p : Option DeclId × Cache => (p.1, p.2.rememberCarrier d p.1)) hpair
      · exact ⟨hsame.elements, hsame.byDecl, hsame.companions⟩

theorem metadataCarrier_spec (linked : r.host.Linked) (acyclic : r.host.Acyclic)
    (h : r.Faithful c) (d : DeclId) :
    ∃ c', r.metadataCarrier d c = .ok (r.host.carrier d) c' ∧ c.SameElements c' ∧ r.Keeps c c' := by
  obtain ⟨c', hpair, hsame, hfaithful⟩ :=
    carrierWithin_spec linked acyclic _ (acyclic.endsWithin linked d) h
  refine ⟨c', ?_, hsame, hfaithful, hsame.grows, hsame.companions⟩
  exact congrArg (fun p : Option DeclId × Cache => EStateM.Result.ok p.1 p.2) hpair

/-- Whether a run of the resolver for a declaration answers as a search for its origin does. -/
inductive Agrees (r : Resolver) (d : DeclId) (c : Cache) :
    EStateM.Result ResolveError Cache (Option ElementId) →
      Except ResolveError (Option Origin) → Prop
  | found {id : ElementId} {o : Origin} {c' : Cache} (keeps : r.Keeps c c')
      (entry : c'.get? d = some id) (holds : o.Holds r c' id) :
      Agrees r d c (.ok (some id) c') (.ok (some o))
  | absent {c' : Cache} (keeps : r.Keeps c c') : Agrees r d c (.ok none c') (.ok none)
  | failed {e : ResolveError} {c' : Cache} (keeps : r.Keeps c c') :
      Agrees r d c (.error e c') (.error e)

variable {x : EStateM.Result ResolveError Cache (Option ElementId)}
  {y : Except ResolveError (Option Origin)}

theorem Agrees.after (h : r.Agrees d c' x y) (hc : r.Keeps c c') : r.Agrees d c x y := by
  cases h with
  | found keeps entry holds => exact .found (hc.trans keeps) entry holds
  | absent keeps => exact .absent (hc.trans keeps)
  | failed keeps => exact .failed (hc.trans keeps)

/-- What is entered already is answered. -/
theorem Faithful.agrees (h : r.Faithful c) {id : ElementId} (hd : c.get? d = some id) :
    r.Agrees d c (.ok (some id) c) (r.origin d) := by
  obtain ⟨o, ho, hholds⟩ := h.entry hd
  rw [ho]
  exact .found h.keeps hd hholds

/-- A new element with its origin. -/
theorem Faithful.agrees_insert (h : r.Faithful c) (hd : c.get? d = none) {e : Element}
    (hforms : e.hostForms = [d]) {o : Origin} (horigin : r.origin d = .ok (some o))
    (hholds : o.Holds r (c.insert d e) c.next) :
    r.Agrees d c (.ok (some c.next) (c.insert d e)) (r.origin d) := by
  rw [horigin]
  refine .found ⟨h.insert hd hforms horigin hholds, .insert hd e, rfl⟩ ?_ hholds
  rw [Cache.get?_insert, if_pos rfl]

/-- A declaration of the source compiler. -/
theorem Faithful.agrees_implicit (h : r.Faithful c) (hd : c.get? d = none) {kind : ImplicitKind}
    {o : Origin} {owner : ElementId} (howner : o.Holds r c owner)
    (horigin : r.origin d = .ok (some (.implicitIn o d kind))) :
    r.Agrees d c
      (.ok (some c.next) (c.insert d
        (.implicit { host := d, kind, name := r.host.simpleName d, owner := some owner })))
      (r.origin d) :=
  h.agrees_insert hd rfl horigin
    ⟨owner, howner.mono (.insert hd _), howner.lt_next, Cache.element?_insert_next _ _ _⟩

/-- One more declaration of an element. -/
theorem Faithful.agrees_identify (h : r.Faithful c) (hd : c.get? d = none) {id : ElementId}
    {o : Origin} (horigin : r.origin d = .ok (some o)) (hholds : o.Holds r c id) :
    r.Agrees d c (.ok (some id) (c.identify d id)) (r.origin d) := by
  have hgrows := Cache.Grows.identify hd id
  rw [horigin]
  refine .found ⟨h.identify hd horigin hholds, hgrows, rfl⟩ ?_ (hholds.mono hgrows)
  rw [Cache.get?_identify, if_pos rfl]

theorem some_commit_eq (build : BuildM ElementId) (c : Cache) :
    (some <$> commit build : ResolveM (Option ElementId)) c =
      match build c.begin with
      | .ok (id, b) => .ok (some id) (c.commit b)
      | .error e => .error e c := by
  simp only [commit, Functor.map, EStateM.map, ResolveM.get_bind]
  cases build c.begin <;> rfl

/-- The elements of a class or file, or the error that making them leads to. -/
theorem Faithful.agrees_commit (h : r.Faithful c) (linked : r.host.Linked)
    (acyclic : r.host.Acyclic) (hkind : (r.host.kind d).isType) (hd : c.get? d = none)
    {build : BuildM ElementId} (hbuild : r.build? d = some build)
    (horigin : r.origin d = stagedOrigin d build) :
    r.Agrees d c ((some <$> Resolver.commit build : ResolveM (Option ElementId)) c)
      (r.origin d) := by
  have hrun : build c.begin =
      (build { base := 0 }).map fun p => (p.1.shift c.size, p.2.shift c.size) := by
    rw [← shifts_of_build? hbuild c.size, Batch.shift_empty]
    rfl
  rw [some_commit_eq, hrun, horigin, stagedOrigin]
  cases hmade : build { base := 0 } with
  | error e => exact .failed h.keeps
  | ok made =>
    obtain ⟨id, b⟩ := made
    obtain ⟨hb, rfl⟩ := batch?_of_build? linked hkind hbuild hmade
    obtain ⟨-, -, hcomplete⟩ := batch?_eq_some linked hb
    obtain ⟨e, he, -⟩ := hcomplete.container
    have hplaces := Cache.places_commit (c := c) (base_of_batch? linked hb)
    exact .found
      ⟨h.commit linked acyclic hb hd, h.grows_commit linked acyclic hb hd, rfl⟩
      (hplaces.claim (claim_of_batch? linked hb)) ⟨b, _, hb, hplaces, rfl, e, he⟩

end Resolver

/-- The element with an origin, and the elements that it refers to. -/
theorem Origin.Holds.element {r : Resolver} {c : Cache} (linked : r.host.Linked) {o : Origin}
    {id : ElementId} (h : o.Holds r c id) :
    ∃ e f, r.element? o = some e ∧ c.element? id = some (e.mapIds f) ∧
      ∀ j ∈ e.references, (o.target j).Holds r c (f j) := by
  cases o with
  | package decl => exact ⟨_, fun j => j, rfl, h, by simp [Element.references]⟩
  | staged container place =>
    obtain ⟨b, n, hb, hplaces, rfl, e, he⟩ := h
    refine ⟨e, .shift n, by simp [Resolver.element?, hb, he], hplaces.element he, fun j hj => ?_⟩
    obtain ⟨e', he'⟩ := (Resolver.sound_of_batch? linked hb).closed he hj
    exact ⟨b, n, hb, hplaces, rfl, e', he'⟩
  | implicit decl kind => exact ⟨_, fun j => j, rfl, h, by simp [Element.references]⟩
  | implicitIn o decl kind =>
    obtain ⟨owner, howner, -, he⟩ := h
    exact ⟨_, fun _ => owner, rfl, he, fun _ _ => howner⟩

/-- What the batch of an element has claimed is entered. -/
theorem Origin.Holds.claimed?_eq_none {r : Resolver} {c : Cache} {o : Origin} {id : ElementId}
    {d : DeclId} (h : o.Holds r c id) (hd : c.get? d = none) : r.claimed? d o = none := by
  cases o with
  | staged container place =>
    obtain ⟨b, n, hb, hplaces, -⟩ := h
    cases hclaim : b.claims.find? d with
    | none => simp [Resolver.claimed?, Resolver.batchOf?, hb, hclaim]
    | some j =>
      have hentry := hplaces.claim hclaim
      rw [hd] at hentry
      cases hentry
  | _ => rfl

namespace Resolver

variable {r : Resolver} {c : Cache} {d : DeclId}

/-- What is entered for a declaration, or else what a step answers. -/
def entered (decl : DeclId) (x : ResolveM (Option ElementId)) : ResolveM (Option ElementId) := do
  match (← get).get? decl with
  | some id => return some id
  | none => x

theorem agrees_entered {x : ResolveM (Option ElementId)} (h : r.Faithful c)
    (hx : c.get? d = none → r.Agrees d c (x c) (r.origin d)) :
    r.Agrees d c (entered d x c) (r.origin d) := by
  simp only [entered, ResolveM.get_bind]
  cases hd : c.get? d with
  | some id => exact h.agrees hd
  | none => exact hx hd

/-- The first element with a name, which the declaration stands for then, or else what a step
answers. -/
def named (cache : Cache) (ids : List ElementId) (name : String) (decl : DeclId)
    (x : ResolveM (Option ElementId)) : ResolveM (Option ElementId) :=
  match named? cache ids name with
  | some id => do
    modify (·.identify decl id)
    return some id
  | none => x

/-- A declaration that belongs to another one: what is entered for it, or else what the last
argument says. -/
def withOwner (r : Resolver) (enclosing : DeclId → ResolveM (Option ElementId)) (decl : DeclId)
    (unclaimed : DeclId → ElementId → Cache → ResolveM (Option ElementId)) :
    ResolveM (Option ElementId) :=
  match r.host.enclosing decl with
  | none => return none
  | some parent => do
    match ← enclosing parent with
    | none => return none
    | some owner =>
      let cache ← get
      match cache.get? decl with
      | some id => return some id
      | none => unclaimed parent owner cache

theorem agrees_withOwner {enclosing : DeclId → ResolveM (Option ElementId)}
    {unclaimed : DeclId → ElementId → Cache → ResolveM (Option ElementId)}
    {unclaimed' : DeclId → Origin → Except ResolveError (Option Origin)}
    (henclosing : ∀ parent, r.host.enclosing d = some parent →
      ∀ c, r.Faithful c → r.Agrees parent c (enclosing parent c) (r.origin parent))
    (horigin : r.origin d = r.originIn r.origin d unclaimed')
    (hunclaimed : ∀ {parent owner o c}, r.Faithful c → c.get? d = none → o.Holds r c owner →
      r.origin d = unclaimed' parent o → r.Agrees d c (unclaimed parent owner c c) (r.origin d))
    (h : r.Faithful c) : r.Agrees d c (r.withOwner enclosing d unclaimed c) (r.origin d) := by
  unfold withOwner
  unfold originIn at horigin
  cases howner : r.host.enclosing d with
  | none =>
    simp only [howner] at horigin ⊢
    rw [horigin]
    exact .absent h.keeps
  | some parent =>
    have hparent := henclosing parent howner c h
    simp only [howner] at horigin ⊢
    simp only [bind, EStateM.bind, Except.bind] at horigin ⊢
    generalize enclosing parent c = x at hparent ⊢
    generalize r.origin parent = y at hparent horigin
    cases hparent with
    | absent keeps =>
      rw [horigin]
      exact .absent keeps
    | failed keeps =>
      rw [horigin]
      exact .failed keeps
    | @found id o c' keeps entry holds =>
      refine Agrees.after ?_ keeps
      change r.Agrees d c' (entered d (unclaimed parent id c') c') _
      apply agrees_entered keeps.faithful
      intro hd
      apply hunclaimed keeps.faithful hd holds
      have hclaimed : r.claimed? d o = none := holds.claimed?_eq_none hd
      rw [horigin]
      simp only [hclaimed]

private theorem implicitMemberKind_mapIds (f : ElementId → ElementId) (e : Element) :
    implicitMemberKind (some (e.mapIds f)) = implicitMemberKind (some e) := by
  cases e with
  | implicit e =>
    obtain ⟨host, kind, name, owner⟩ := e
    cases kind <;> rfl
  | _ => rfl

theorem isImplicitParameter_mapIds (host : Host) (executable d : DeclId)
    (f : ElementId → ElementId) (e : Element) :
    isImplicitParameter host executable d (some (e.mapIds f)) =
      isImplicitParameter host executable d (some e) := by
  cases e <;> rfl

private theorem agrees_member {enclosing : DeclId → ResolveM (Option ElementId)}
    (linked : r.host.Linked)
    (henclosing : ∀ parent, r.host.enclosing d = some parent →
      ∀ c, r.Faithful c → r.Agrees parent c (enclosing parent c) (r.origin parent))
    (horigin : r.origin d = r.originIn r.origin d (r.unclaimedMember d)) (h : r.Faithful c) :
    r.Agrees d c (r.resolveMember enclosing d c) (r.origin d) := by
  have heq : r.resolveMember enclosing d = r.withOwner enclosing d fun _ owner cache => do
      let kind := implicitMemberKind (cache.element? owner)
      return some (← r.insertImplicit d kind (some owner)) := by
    unfold resolveMember withOwner
    cases r.host.enclosing d <;> rfl
  rw [heq]
  refine agrees_withOwner henclosing horigin (fun {parent owner o c} hc hd hholds horigin => ?_) h
  obtain ⟨e, f, he, hel, -⟩ := hholds.element linked
  refine hc.agrees_implicit hd hholds (horigin.trans ?_)
  rw [unclaimedMember, he, hel, implicitMemberKind_mapIds]
  rfl

/-- The first element with a name, in the cache and in its batch. -/
private theorem named?_map {ids : List ElementId} {f : ElementId → ElementId} {o : Origin}
    (linked : r.host.Linked) (hids : ∀ j ∈ ids, (o.target j).Holds r c (f j)) (name : String) :
    named? c (ids.map f) name =
      (ids.find? fun j => (r.element? (o.target j)).any fun e => e.name = name).map f := by
  unfold named?
  rw [List.find?_map]
  congr 1
  apply List.find?_congr
  intro j hj
  obtain ⟨e, g, he, hel, -⟩ := (hids j hj).element linked
  simp [he, hel]

/-- A declaration that stands for the element with its name. -/
private theorem agrees_named {ids : List ElementId} {f : ElementId → ElementId} {o : Origin}
    {x : ResolveM (Option ElementId)} {y : Except ResolveError (Option Origin)}
    (linked : r.host.Linked) (h : r.Faithful c) (hd : c.get? d = none)
    (hids : ∀ j ∈ ids, (o.target j).Holds r c (f j)) {name : String}
    (horigin : r.origin d = match r.namedIn? ids name o with
      | some origin => return some origin
      | none => y)
    (hunnamed : r.origin d = y → r.Agrees d c (x c) (r.origin d)) :
    r.Agrees d c (named c (ids.map f) name d x c) (r.origin d) := by
  unfold named
  rw [named?_map linked hids]
  unfold namedIn? at horigin
  cases hfind : ids.find? fun j => (r.element? (o.target j)).any fun e => e.name = name with
  | some j =>
    rw [hfind] at horigin
    exact h.agrees_identify hd horigin (hids j (List.mem_of_find?_eq_some hfind))
  | none =>
    rw [hfind] at horigin
    exact hunnamed horigin

private theorem agrees_parameter {enclosing : DeclId → ResolveM (Option ElementId)}
    (linked : r.host.Linked)
    (henclosing : ∀ parent, r.host.enclosing d = some parent →
      ∀ c, r.Faithful c → r.Agrees parent c (enclosing parent c) (r.origin parent))
    (horigin : r.origin d = r.originIn r.origin d (r.unclaimedParameter d)) (h : r.Faithful c) :
    r.Agrees d c (r.resolveParameter enclosing d c) (r.origin d) := by
  have heq : r.resolveParameter enclosing d = r.withOwner enclosing d fun executable owner cache =>
      if isImplicitParameter r.host executable d (cache.element? owner) then do
        return some (← r.insertImplicit d .syntheticParameter (some owner))
      else
        named cache (((cache.element? owner).bind Element.parameters?).getD [])
          (r.host.simpleName d) d
          (throw (.missingCorrespondence (r.host.describe executable) (r.host.simpleName d)
            (r.host.signature executable))) := by
    unfold resolveParameter withOwner
    cases r.host.enclosing d <;> rfl
  rw [heq]
  refine agrees_withOwner henclosing horigin (fun {parent owner o c} hc hd hholds horigin => ?_) h
  obtain ⟨e, f, he, hel, hids⟩ := hholds.element linked
  simp only [unclaimedParameter, he] at horigin
  simp only [hel, isImplicitParameter_mapIds]
  split
  · rename_i himplicit
    rw [if_pos himplicit] at horigin
    exact hc.agrees_implicit hd hholds horigin
  · rename_i himplicit
    rw [if_neg himplicit] at horigin
    rw [Option.bind_some, Element.getD_parameters?_mapIds]
    refine agrees_named linked hc hd (fun j hj => ?_) horigin fun horigin => ?_
    · exact hids j (Element.mem_references_of_mem_parameters hj)
    · rw [horigin]
      exact .failed hc.keeps

private theorem agrees_unnamedTypeParameter (h : r.Faithful c) (hd : c.get? d = none)
    {parent : DeclId} {owner : ElementId} {o : Origin} {e : Element} {f : ElementId → ElementId}
    (linked : r.host.Linked) (hholds : o.Holds r c owner) (he : r.element? o = some e)
    (hids : ∀ j ∈ e.references, (o.target j).Holds r c (f j))
    (horigin : r.origin d = r.unnamedTypeParameter d parent o) :
    r.Agrees d c (r.resolveUnnamedTypeParameter parent d owner (some (e.mapIds f)) c)
      (r.origin d) := by
  simp only [unnamedTypeParameter, he, Option.bind_some] at horigin
  simp only [resolveUnnamedTypeParameter, Option.bind_some, Element.typeParameters?_mapIds]
  cases htypes : e.typeParameters? with
  | some ids =>
    simp only [htypes] at horigin
    have hname (position : Nat) : ((ids.map f)[position]?.bind c.element?).map Element.name =
        (ids[position]?.bind fun place => r.element? (o.target place)).map Element.name := by
      rw [List.getElem?_map]
      cases hj : ids[position]? with
      | none => rfl
      | some j =>
        have hmem := Element.mem_references_of_typeParameters? htypes (List.mem_of_getElem? hj)
        obtain ⟨e', g, he', hel, -⟩ := (hids j hmem).element linked
        simp [he', hel]
    rw [horigin, ← hname]
    exact .failed h.keeps
  | none =>
    simp only [htypes] at horigin
    cases e with
    | property e => exact h.agrees_implicit hd hholds horigin
    | implicit e => exact h.agrees_implicit hd hholds horigin
    | type e => cases htypes
    | function e => cases htypes
    | _ =>
      rw [horigin]
      exact .failed h.keeps

private theorem agrees_typeParameter {enclosing : DeclId → ResolveM (Option ElementId)}
    (linked : r.host.Linked)
    (henclosing : ∀ parent, r.host.enclosing d = some parent →
      ∀ c, r.Faithful c → r.Agrees parent c (enclosing parent c) (r.origin parent))
    (horigin : r.origin d = r.typeParameterOrigin r.origin d) (h : r.Faithful c) :
    r.Agrees d c (r.resolveTypeParameter enclosing d c) (r.origin d) := by
  unfold typeParameterOrigin at horigin
  unfold resolveTypeParameter
  cases howner : r.host.enclosing d with
  | none =>
    rw [howner] at horigin
    rw [horigin]
    exact .absent h.keeps
  | some parent =>
    simp only [howner] at horigin ⊢
    split
    · rename_i hkind
      rw [if_pos hkind] at horigin
      rw [horigin]
      exact .failed h.keeps
    rename_i hkind
    rw [if_neg hkind] at horigin
    suffices hagrees : r.Agrees d c (r.withOwner enclosing d (fun parent owner cache =>
        named cache (((cache.element? owner).bind Element.typeParameters?).getD [])
          (r.host.simpleName d) d
          (r.resolveUnnamedTypeParameter parent d owner (cache.element? owner))) c)
        (r.origin d) by
      unfold withOwner at hagrees
      simp only [howner] at hagrees
      exact hagrees
    refine agrees_withOwner henclosing horigin (fun {parent owner o c} hc hd hholds horigin => ?_) h
    obtain ⟨e, f, he, hel, hids⟩ := hholds.element linked
    simp only [unclaimedTypeParameter, he] at horigin
    simp only [hel]
    rw [Option.bind_some, Element.getD_typeParameters?_mapIds]
    refine agrees_named linked hc hd (fun j hj => ?_) horigin fun horigin => ?_
    · exact hids j (Element.mem_references_of_mem_typeParameters hj)
    · exact agrees_unnamedTypeParameter hc hd linked hholds he hids horigin

/-- A type of the source compiler, once what encloses it is known. -/
private theorem agrees_ownedType (h : r.Faithful c) {kind : ImplicitKind} {owner : Option ElementId}
    {o : Option Origin} (howner : Option.Rel (fun id o => o.Holds r c id) owner o)
    (horigin : r.origin d = .ok (some (implicitOrigin d kind o))) :
    r.Agrees d c (entered d (some <$> r.insertImplicit d kind owner) c) (r.origin d) := by
  apply agrees_entered h
  intro hd
  cases howner with
  | some hholds => exact h.agrees_implicit hd hholds horigin
  | none => exact h.agrees_insert hd rfl horigin (Cache.element?_insert_next _ _ _)

private theorem agrees_implicitType {enclosing : DeclId → ResolveM (Option ElementId)}
    (henclosing : ∀ parent, r.host.enclosing d = some parent →
      ∀ c, r.Faithful c → r.Agrees parent c (enclosing parent c) (r.origin parent))
    {kind : ImplicitKind} (horigin : r.origin d = r.implicitTypeOrigin r.origin d kind)
    (h : r.Faithful c) : r.Agrees d c (r.resolveImplicitType enclosing d kind c) (r.origin d) := by
  unfold implicitTypeOrigin at horigin
  unfold resolveImplicitType
  cases howner : r.host.enclosing d with
  | none =>
    rw [howner] at horigin
    exact agrees_ownedType h .none horigin
  | some parent =>
    have hparent := henclosing parent howner c h
    simp only [howner] at horigin ⊢
    simp only [bind, EStateM.bind, Except.bind] at horigin ⊢
    generalize enclosing parent c = x at hparent ⊢
    generalize r.origin parent = y at hparent horigin
    cases hparent with
    | absent keeps => exact (agrees_ownedType keeps.faithful .none horigin).after keeps
    | failed keeps =>
      rw [horigin]
      exact .failed keeps
    | found keeps entry holds =>
      exact (agrees_ownedType keeps.faithful (.some holds) horigin).after keeps

private theorem agrees_type {enclosing : DeclId → ResolveM (Option ElementId)}
    (linked : r.host.Linked) (acyclic : r.host.Acyclic)
    (henclosing : ∀ parent, r.host.enclosing d = some parent →
      ∀ c, r.Faithful c → r.Agrees parent c (enclosing parent c) (r.origin parent))
    (hkind : (r.host.kind d).isType)
    (horigin : r.origin d = r.typeOrigin r.origin d) (h : r.Faithful c) (hd : c.get? d = none) :
    r.Agrees d c (r.resolveType enclosing d c) (r.origin d) := by
  unfold typeOrigin at horigin
  unfold resolveType
  cases hmetadata : r.host.metadata d with
  | none =>
    simp only [hmetadata] at horigin ⊢
    split
    · rename_i hname
      rw [if_pos hname] at horigin
      exact agrees_implicitType henclosing horigin h
    · rename_i hname
      rw [if_neg hname] at horigin
      rw [horigin]
      exact .failed h.keeps
  | some metadata =>
    simp only [hmetadata] at horigin ⊢
    cases metadata with
    | ofClass metadata =>
      exact h.agrees_commit linked acyclic hkind hd (build?_of_ofClass hmetadata) horigin
    | fileFacade metadata =>
      exact h.agrees_commit linked acyclic hkind hd (build?_of_fileFacade hmetadata) horigin
    | multiFileFacade _ =>
      rw [horigin]
      exact .failed h.keeps
    | multiFilePart _ _ =>
      rw [horigin]
      exact .failed h.keeps
    | synthetic => exact agrees_implicitType henclosing horigin h

private theorem agrees_source {enclosing : DeclId → ResolveM (Option ElementId)}
    (linked : r.host.Linked) (acyclic : r.host.Acyclic)
    (henclosing : ∀ parent, r.host.enclosing d = some parent →
      ∀ c, r.Faithful c → r.Agrees parent c (enclosing parent c) (r.origin parent))
    (horigin : r.origin d = r.sourceOrigin r.origin d) (h : r.Faithful c) (hd : c.get? d = none) :
    r.Agrees d c (r.resolveSource enclosing d c) (r.origin d) := by
  unfold sourceOrigin at horigin
  unfold resolveSource
  cases hkind : r.host.kind d <;> simp only [hkind] at horigin ⊢
  case classType | interfaceType | enumType | annotationType =>
    exact agrees_type linked acyclic henclosing (by rw [hkind]; rfl) horigin h hd
  case method | constructor | field | enumConstant | instanceInit | staticInit =>
    exact agrees_member linked henclosing horigin h
  case parameter => exact agrees_parameter linked henclosing horigin h
  case typeParameter => exact agrees_typeParameter linked henclosing horigin h
  all_goals
    rw [horigin]
    exact .failed h.keeps

/-- A declaration that is neither a package nor a module, once its carrier is looked for. -/
private theorem agrees_carried {enclosing : DeclId → ResolveM (Option ElementId)}
    (linked : r.host.Linked) (acyclic : r.host.Acyclic)
    (henclosing : ∀ parent, r.host.enclosing d = some parent →
      ∀ c, r.Faithful c → r.Agrees parent c (enclosing parent c) (r.origin parent))
    (horigin : r.origin d = match r.host.carrier d with
      | none => return none
      | some _ => r.sourceOrigin r.origin d)
    (h : r.Faithful c) (hd : c.get? d = none) :
    r.Agrees d c ((do
      match ← r.metadataCarrier d with
      | none => return none
      | some _ => r.resolveSource enclosing d : ResolveM (Option ElementId)) c) (r.origin d) := by
  obtain ⟨c₁, hcarrier, hsame, hkeeps⟩ := metadataCarrier_spec linked acyclic h d
  have hd₁ : c₁.get? d = none := by rw [Cache.get?, hsame.byDecl]; exact hd
  simp only [bind, EStateM.bind, hcarrier]
  cases hfound : r.host.carrier d with
  | none =>
    rw [hfound] at horigin
    rw [horigin]
    exact .absent hkeeps
  | some carrier =>
    rw [hfound] at horigin
    exact (agrees_source linked acyclic henclosing horigin hkeeps.faithful hd₁).after hkeeps

theorem resolveStep_of_get?_eq_some {enclosing : DeclId → ResolveM (Option ElementId)}
    {id : ElementId} (hd : c.get? d = some id) : r.resolveStep enclosing d c = .ok (some id) c := by
  simp only [resolveStep, ResolveM.get_bind, hd]
  rfl

/-- Resolving with a faithful cache agrees with the search for the origin. -/
theorem agrees_resolve (linked : r.host.Linked) (acyclic : r.host.Acyclic) (d : DeclId) (c : Cache)
    (h : r.Faithful c) : r.Agrees d c (r.resolve d c) (r.origin d) := by
  induction d using acyclic.induction linked generalizing c with
  | step d ih =>
  have horigin := origin_eq linked acyclic d
  unfold originStep at horigin
  have hcarried := agrees_carried linked acyclic (d := d) (c := c) ih
  rw [resolve_eq linked acyclic]
  cases hd : c.get? d with
  | some id =>
    rw [resolveStep_of_get?_eq_some hd]
    exact h.agrees hd
  | none =>
    simp only [resolveStep, ResolveM.get_bind, hd]
    cases hkind : r.host.kind d <;> simp only [hkind] at horigin ⊢
    case package =>
      exact h.agrees_insert hd rfl horigin (Cache.element?_insert_next _ _ _)
    case moduleDecl =>
      rw [horigin]
      exact .failed h.keeps
    all_goals exact hcarried horigin h hd

end Resolver

end Correspondence
