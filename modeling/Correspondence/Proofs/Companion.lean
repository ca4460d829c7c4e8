import Correspondence.Proofs.Constructors
import Correspondence.Proofs.Enclosing

/-!
# Companions

What the companion of a class is follows from the declarations and the metadata alone. The cache keeps
the answer once it is found, beside the entry of the companion itself. So it does not matter whether
the companion was resolved before, and the answer is the same ever after.
-/

namespace Correspondence

theorem Metadata.class?_eq_some {m : Metadata} {metadata : ClassMetadata}
    (h : m.class? = some metadata) : m = .ofClass metadata := by
  cases m <;> cases h
  rfl

theorem StringTable.eq_none_iff_of_read? {strings : StringTable} {id? : Option StringId}
    {text? : Option String} (h : strings.read? id? = .ok text?) : text? = none ↔ id? = none := by
  cases id? with
  | none => exact iff_of_true (Except.ok.inj h).symm rfl
  | some id =>
    obtain ⟨text, -, rfl⟩ := Except.map_eq_ok_iff.mp h
    simp

theorem Cache.find?_rememberCompanion (c : Cache) (owner id : ElementId)
    (companion : Option ElementId) :
    (c.rememberCompanion owner companion).companions.find? id =
      if id = owner then some companion else c.companions.find? id :=
  Lookup.find?_insert _ _ _ _

/-- The metadata of a class without a single string. -/
def ClassMetadata.withoutStrings : ClassMetadata where
  strings := {}
  descriptor := { qualifiedName := ⟨0⟩, kind := .regular }

namespace Resolver

variable {r : Resolver} {c c' c'' : Cache} {d : DeclId} {id : ElementId} {e : TypeElement}
  {known : Option ElementId}

/-- The declaration of the companion of a class, without a cache; none if the class names none. -/
def companionDecl (r : Resolver) (e : TypeElement) : Except ResolveError (Option DeclId) :=
  match e.companionName with
  | none => return none
  | some name =>
    match r.companionCandidates e.host name with
    | [candidate] =>
      match (r.host.metadata candidate).bind Metadata.class? with
      | none =>
        throw (.companionWithoutMetadata (r.host.describe e.host) (r.host.describe candidate))
      | some _ => (r.origin candidate).map fun _ => some candidate
    | candidates =>
      throw (.companionNotFound (r.host.describe e.host) name candidates.length)

theorem companionCandidates_eq (r : Resolver) (owner : DeclId) (name : String) :
    r.companionCandidates owner name = (r.host.enclosed owner).filter fun d =>
      r.host.kind d = .classType ∧ r.host.simpleName d = name := by
  rw [companionCandidates, Host.members, List.filter_filter]
  simp only [Bool.decide_and, Bool.and_comm]

theorem kind_of_mem_companionCandidates {owner : DeclId} {name : String}
    (hd : d ∈ r.companionCandidates owner name) : r.host.kind d = .classType := by
  have hmember : d ∈ r.host.members owner .classType := (List.mem_filter.mp hd).1
  exact of_decide_eq_true (List.mem_filter.mp hmember).2

/-- A companion is the only candidate, and has metadata. -/
theorem companionDecl_eq_ok (h : r.companionDecl e = .ok (some d)) :
    ∃ name metadata, e.companionName = some name ∧ r.companionCandidates e.host name = [d] ∧
      r.host.metadata d = some (.ofClass metadata) := by
  unfold companionDecl at h
  split at h
  · cases h
  · rename_i name hname
    split at h
    · rename_i candidate hcandidate
      split at h
      · cases h
      · rename_i metadata hclass
        obtain ⟨m, hm, hclass⟩ := Option.bind_eq_some_iff.mp hclass
        obtain ⟨-, -, hsame⟩ := Except.map_eq_ok_iff.mp h
        obtain rfl := Option.some.inj hsame
        exact ⟨name, metadata, hname, hcandidate, Metadata.class?_eq_some hclass ▸ hm⟩
    · cases h

theorem companionDecl_eq_ok_none_iff : r.companionDecl e = .ok none ↔ e.companionName = none := by
  unfold companionDecl
  constructor
  · intro h
    split at h
    · assumption
    · split at h
      · split at h
        · cases h
        · obtain ⟨-, -, hsome⟩ := Except.map_eq_ok_iff.mp h
          cases hsome
      · cases h
  · intro hname
    rw [hname]
    rfl

/-- Whether an answer is what a cache has for the companion of a class. -/
def IsCompanion (r : Resolver) (c : Cache) (e : TypeElement) (known : Option ElementId) : Prop :=
  ∃ x, r.companionDecl e = .ok x ∧ Option.Rel (fun d id => c.get? d = some id) x known

theorem IsCompanion.mono (h : r.IsCompanion c e known) (hc : c.Grows c') :
    r.IsCompanion c' e known := by
  obtain ⟨x, hx, hrel⟩ := h
  refine ⟨x, hx, ?_⟩
  cases hrel with
  | some hd => exact .some (hc.entry hd)
  | none => exact .none

/-- Whether the companions that a cache keeps are those of its classes. -/
def Remembers (r : Resolver) (c : Cache) : Prop :=
  ∀ {id known}, c.companions.find? id = some known →
    ∃ e, c.element? id = some (.type e) ∧ r.IsCompanion c e known

theorem remembers_empty (r : Resolver) : r.Remembers {} := by
  intro id known h
  simp at h

theorem Remembers.mono (h : r.Remembers c) (hc : c.Grows c')
    (hcompanions : c'.companions = c.companions) : r.Remembers c' := by
  intro id known hfind
  obtain ⟨e, he, hknown⟩ := h (hcompanions ▸ hfind)
  exact ⟨e, hc.element he, hknown.mono hc⟩

/-- Whether asking for the companion of a class answers as a search for its declaration does. An answer
is kept, and a failure changes no more than the carriers. -/
inductive AgreesCompanion (r : Resolver) (c : Cache) (id : ElementId) :
    EStateM.Result ResolveError Cache (Option ElementId) →
      Except ResolveError (Option DeclId) → Prop
  | kept {known : Option ElementId} {c' : Cache} {x : Option DeclId} (faithful : r.Faithful c')
      (grows : c.Grows c') (rel : Option.Rel (fun d i => c'.get? d = some i) x known)
      (find : ∀ j, c'.companions.find? j = if j = id then some known else c.companions.find? j) :
      AgreesCompanion r c id (.ok known c') (.ok x)
  | failed {err : ResolveError} {c' : Cache} (faithful : r.Faithful c')
      (same : c.SameElements c') : AgreesCompanion r c id (.error err c') (.error err)

/-- A class is resolved, or fails as its origin does and leaves the elements as they are. -/
private theorem resolve_class (linked : r.host.Linked) (acyclic : r.host.Acyclic)
    (h : r.Faithful c) (hkind : (r.host.kind d).isType) {metadata : ClassMetadata}
    (hmetadata : r.host.metadata d = some (.ofClass metadata)) :
    (∃ x id c', r.origin d = .ok x ∧ r.resolve d c = .ok (some id) c' ∧ r.Keeps c c' ∧
        c'.get? d = some id) ∨
      ∃ err c', r.origin d = .error err ∧ r.resolve d c = .error err c' ∧ r.Faithful c' ∧
        c.SameElements c' := by
  have hbuild := build?_of_ofClass hmetadata
  have hagrees := agrees_resolve linked acyclic d c h
  generalize hrun : r.resolve d c = result at hagrees
  generalize horigin : r.origin d = x at hagrees
  cases hagrees with
  | found keeps entry _ => exact .inl ⟨_, _, _, rfl, rfl, keeps, entry⟩
  | absent _ =>
    obtain ⟨-, -, -, hstaged⟩ := exists_made_of_origin linked acyclic hkind hbuild horigin
    cases hstaged
  | failed keeps =>
    exact .inr ⟨_, _, rfl, rfl, keeps.faithful,
      sameElements_of_error linked acyclic h hkind hbuild hrun⟩

/-- The companion of a class that names one. -/
private theorem agreesCompanion_resolve (linked : r.host.Linked) (acyclic : r.host.Acyclic)
    (h : r.Faithful c) {name : String} (hname : e.companionName = some name) :
    r.AgreesCompanion c id (r.resolveCompanion id e.host name c) (r.companionDecl e) := by
  have hkind {d : DeclId} (hd : d ∈ r.companionCandidates e.host name) :
      r.host.kind d = .classType := kind_of_mem_companionCandidates hd
  simp only [resolveCompanion, companionDecl, hname]
  generalize r.companionCandidates e.host name = candidates at hkind
  cases candidates with
  | nil => exact .failed h ⟨rfl, rfl, rfl⟩
  | cons candidate others =>
    cases others with
    | cons _ _ => exact .failed h ⟨rfl, rfl, rfl⟩
    | nil =>
      cases hclass : (r.host.metadata candidate).bind Metadata.class? with
      | none =>
        simp only [hclass]
        exact .failed h ⟨rfl, rfl, rfl⟩
      | some metadata =>
        simp only [hclass]
        obtain ⟨m, hm, hclass⟩ := Option.bind_eq_some_iff.mp hclass
        have htype : (r.host.kind candidate).isType := by
          rw [hkind List.mem_cons_self]
          rfl
        rcases resolve_class linked acyclic h htype (Metadata.class?_eq_some hclass ▸ hm) with
          ⟨x, i, c', horigin, hrun, hkeeps, hentry⟩ | ⟨err, c', horigin, hrun, hfaithful, hsame⟩
        · simp only [bind, EStateM.bind, hrun, horigin]
          refine .kept (hkeeps.faithful.rememberCompanion id (some i))
            (hkeeps.grows.trans ⟨fun he => he, fun hd => hd⟩) (.some hentry) fun j => ?_
          rw [← hkeeps.companions]
          exact c'.find?_rememberCompanion id j (some i)
        · simp only [bind, EStateM.bind, hrun, horigin]
          exact .failed hfaithful hsame

theorem companion_of_find? (hfind : c.companions.find? id = some known) :
    r.companion id c = .ok known c := by
  simp only [companion, ResolveM.get_bind, hfind]
  rfl

/-- Asking for the companion of a class answers as a search for its declaration does, whatever the
cache has found out already. -/
theorem agreesCompanion (linked : r.host.Linked) (acyclic : r.host.Acyclic) (h : r.Faithful c)
    (hmemo : r.Remembers c) (he : c.element? id = some (.type e)) :
    r.AgreesCompanion c id (r.companion id c) (r.companionDecl e) := by
  cases hfind : c.companions.find? id with
  | some known =>
    -- what is kept was right when it was kept, and the cache has only grown since
    obtain ⟨e', he', x, hx, hrel⟩ := hmemo hfind
    obtain rfl := Element.type.inj (Option.some.inj (he.symm.trans he'))
    rw [companion_of_find? hfind, hx]
    refine .kept h (.refl c) hrel fun j => ?_
    split
    · rename_i hj
      rw [hj, hfind]
    · rfl
  | none =>
    simp only [companion, ResolveM.get_bind, hfind, he, Option.bind_some, Element.type?]
    cases hname : e.companionName with
    | none =>
      rw [companionDecl_eq_ok_none_iff.mpr hname]
      exact .kept (h.rememberCompanion id none) ⟨fun he => he, fun hd => hd⟩ .none
        fun j => c.find?_rememberCompanion id j none
    | some name => exact agreesCompanion_resolve linked acyclic h hname

/-- How a cache changes that keeps the right companions: it keeps them, and others that are right. -/
structure Recalls (r : Resolver) (c c' : Cache) : Prop where
  faithful : r.Faithful c'
  grows : c.Grows c'
  remembers : r.Remembers c'
  companion {id : ElementId} {known : Option ElementId} :
    c.companions.find? id = some known → c'.companions.find? id = some known

theorem Recalls.refl (h : r.Faithful c) (hmemo : r.Remembers c) : r.Recalls c c :=
  ⟨h, .refl c, hmemo, id⟩

theorem Recalls.trans (h : r.Recalls c c') (h' : r.Recalls c' c'') : r.Recalls c c'' :=
  ⟨h'.faithful, h.grows.trans h'.grows, h'.remembers, fun hfind => h'.companion (h.companion hfind)⟩

theorem Keeps.recalls (h : r.Keeps c c') (hmemo : r.Remembers c) : r.Recalls c c' :=
  ⟨h.faithful, h.grows, hmemo.mono h.grows h.companions, fun hfind => h.companions ▸ hfind⟩

/-- A companion that is asked for is kept if it is new, and nothing else that is kept changes. -/
theorem recalls_companion (linked : r.host.Linked) (acyclic : r.host.Acyclic) (h : r.Faithful c)
    (hmemo : r.Remembers c) (id : ElementId) :
    r.Recalls c (ResolveM.after (r.companion id) c) := by
  unfold ResolveM.after
  cases hfind : c.companions.find? id with
  | some known =>
    rw [companion_of_find? hfind]
    exact .refl h hmemo
  | none =>
    cases htype : (c.element? id).bind Element.type? with
    | none =>
      simp only [companion, ResolveM.get_bind, hfind, htype]
      exact .refl h hmemo
    | some e =>
      obtain ⟨el, hel, htype⟩ := Option.bind_eq_some_iff.mp htype
      obtain rfl : el = .type e := by
        cases el <;> cases htype
        rfl
      have hagrees := agreesCompanion linked acyclic h hmemo hel
      generalize r.companion id c = result at hagrees
      generalize hx : r.companionDecl e = x at hagrees
      cases hagrees with
      | failed faithful same =>
        exact Keeps.recalls ⟨faithful, same.grows, same.companions⟩ hmemo
      | @kept known c' x faithful grows rel find =>
        refine ⟨faithful, grows, fun {j answer} hj => ?_, fun {j answer} hj => ?_⟩
        · rw [find] at hj
          split at hj
          · rename_i hid
            obtain rfl := Option.some.inj hj
            exact ⟨e, hid ▸ grows.element hel, x, hx, rel⟩
          · obtain ⟨e', he', hknown⟩ := hmemo hj
            exact ⟨e', grows.element he', hknown.mono grows⟩
        · -- nothing was kept for `id`, so what is kept is for another class
          have hne : j ≠ id := by
            rintro rfl
            cases hfind.symm.trans hj
          rw [find, if_neg hne, hj]

theorem recalls_run (linked : r.host.Linked) (acyclic : r.host.Acyclic) (h : r.Faithful c)
    (hmemo : r.Remembers c) (op : Operation) : r.Recalls c (r.run c op) := by
  by_cases hop : ∀ id, op ≠ .companion id
  · exact (keeps_run linked acyclic h hop).recalls hmemo
  · obtain ⟨id, rfl⟩ := not_forall_not.mp hop
    exact recalls_companion linked acyclic h hmemo id

theorem recalls_foldl (linked : r.host.Linked) (acyclic : r.host.Acyclic) (h : r.Faithful c)
    (hmemo : r.Remembers c) (ops : List Operation) : r.Recalls c (ops.foldl r.run c) := by
  induction ops generalizing c with
  | nil => exact .refl h hmemo
  | cons op ops ih =>
    have hstep := recalls_run linked acyclic h hmemo op
    exact hstep.trans (ih hstep.faithful hstep.remembers)

/-- A class has no companion exactly if it names none. -/
theorem companion_eq_none_iff (linked : r.host.Linked) (acyclic : r.host.Acyclic)
    (h : r.Faithful c) (hmemo : r.Remembers c) (he : c.element? id = some (.type e)) :
    (∃ c', r.companion id c = .ok none c') ↔ e.companionName = none := by
  have hagrees := agreesCompanion linked acyclic h hmemo he
  rw [← companionDecl_eq_ok_none_iff (r := r)]
  constructor
  · rintro ⟨c', hrun⟩
    rw [hrun] at hagrees
    generalize r.companionDecl e = x at hagrees
    cases hagrees with
    | kept faithful grows rel find =>
      cases rel
      rfl
  · intro hnone
    rw [hnone] at hagrees
    generalize r.companion id c = result at hagrees
    cases hagrees with
    | kept faithful grows rel find =>
      cases rel
      exact ⟨_, rfl⟩

/-- A class with metadata stands for a type. -/
private theorem Faithful.exists_type (h : r.Faithful c) (linked : r.host.Linked)
    (acyclic : r.host.Acyclic) (hkind : (r.host.kind d).isType) {metadata : ClassMetadata}
    (hmetadata : r.host.metadata d = some (.ofClass metadata)) (hd : c.get? d = some id) :
    ∃ t, c.element? id = some (.type t) ∧ t.host = d := by
  have hbuild := build?_of_ofClass hmetadata
  obtain ⟨o, horigin, hholds⟩ := h.entry hd
  obtain ⟨b, hmade, hb, hstaged⟩ := exists_made_of_origin linked acyclic hkind hbuild horigin
  obtain rfl := Option.some.inj hstaged
  obtain ⟨-, hcomplete, index, t, -, ht, -⟩ :=
    Building.buildType_ok linked hkind hmetadata hmade
  obtain ⟨e, he, -, hforms, -⟩ := hcomplete.container
  obtain rfl := Option.some.inj (ht.symm.trans he)
  obtain ⟨n, e₀, hplaces, rfl, he₀⟩ := hholds.exists_places hb
  exact ⟨_, hplaces.element ht, List.singleton_inj.mp hforms⟩

/-- The name of the companion is read from the descriptor. -/
private theorem Faithful.exists_companionName (h : r.Faithful c) (linked : r.host.Linked)
    (he : c.element? id = some (.type e)) :
    ∃ metadata, r.host.metadata e.host = some (.ofClass metadata) ∧
      metadata.strings.read? metadata.descriptor.companionName = .ok e.companionName := by
  obtain ⟨metadata, b, n, e₀, hmetadata, hkind, hrun, -, -, he₀, hsame⟩ :=
    h.exists_buildType linked he
  obtain ⟨-, -, index, e₁, -, he₁, -, hname, -⟩ :=
    Building.buildType_ok linked hkind hmetadata hrun
  obtain rfl := Element.type.inj (Option.some.inj (he₀.symm.trans he₁))
  obtain rfl := Element.type.inj hsame
  exact ⟨metadata, hmetadata, hname⟩

/-- A companion is the type of the only candidate, and the class encloses it. -/
theorem companion_eq_some (linked : r.host.Linked) (acyclic : r.host.Acyclic)
    (h : r.Faithful c) (hmemo : r.Remembers c) (he : c.element? id = some (.type e))
    {companion : ElementId} (hrun : r.companion id c = .ok (some companion) c') :
    ∃ name candidate t, e.companionName = some name ∧
      r.companionCandidates e.host name = [candidate] ∧
      c'.element? companion = some (.type t) ∧ t.host = candidate ∧
      c'.get? candidate = some companion ∧
      r.enclosingElement companion c' = .ok (some id) c' := by
  have hagrees := agreesCompanion linked acyclic h hmemo he
  rw [hrun] at hagrees
  generalize hx : r.companionDecl e = x at hagrees
  cases hagrees with
  | kept faithful grows rel find =>
    cases rel with
    | @some candidate _ hentry =>
      obtain ⟨name, metadata, hname, hcandidate, hmetadata⟩ := companionDecl_eq_ok hx
      have hmem : candidate ∈ r.companionCandidates e.host name := by
        rw [hcandidate]
        exact List.mem_cons_self
      have hmember : candidate ∈ r.host.enclosed e.host :=
        (List.mem_filter.mp (List.mem_filter.mp hmem).1).1
      obtain ⟨t, ht, hhost⟩ := faithful.exists_type linked acyclic
        (by rw [kind_of_mem_companionCandidates hmem]; rfl) hmetadata hentry
      have hclass : c'.get? e.host = some id :=
        faithful.filed (grows.element he) List.mem_cons_self
      exact ⟨name, candidate, t, hname, hcandidate, ht, hhost, hentry,
        faithful.enclosingElement_of_member linked acyclic (linked.member hmember).1 hclass hentry⟩

/-- A class has a companion where the only candidate has metadata and can be resolved. -/
theorem exists_companion_of_resolve (linked : r.host.Linked) (acyclic : r.host.Acyclic)
    (h : r.Faithful c) (hmemo : r.Remembers c) (he : c.element? id = some (.type e)) {name : String}
    (hname : e.companionName = some name) (hcandidate : r.companionCandidates e.host name = [d])
    {metadata : ClassMetadata} (hmetadata : r.host.metadata d = some (.ofClass metadata))
    {i : ElementId} (hrun : r.resolve d c = .ok (some i) c') :
    ∃ companion c', r.companion id c = .ok (some companion) c' := by
  have hresolved := agrees_resolve linked acyclic d c h
  rw [hrun] at hresolved
  generalize horigin : r.origin d = x at hresolved
  cases hresolved with
  | found _ _ _ =>
    have hdecl : r.companionDecl e = .ok (some d) := by
      simp only [companionDecl, hname, hcandidate, hmetadata, Option.bind_some, Metadata.class?,
        horigin, Except.map]
    have hagrees := agreesCompanion linked acyclic h hmemo he
    rw [hdecl] at hagrees
    generalize r.companion id c = result at hagrees
    cases hagrees with
    | kept faithful grows rel find =>
      cases rel
      exact ⟨_, _, rfl⟩

/-- An answer for a class is the answer ever after, and the cache stays as it is then. -/
theorem companion_of_ok (linked : r.host.Linked) (acyclic : r.host.Acyclic)
    (h : r.Faithful c) (hmemo : r.Remembers c) (he : c.element? id = some (.type e))
    (hrun : r.companion id c = .ok known c') (later : List Operation) :
    r.companion id (later.foldl r.run c') = .ok known (later.foldl r.run c') := by
  have hrecalls := recalls_companion linked acyclic h hmemo id
  have hagrees := agreesCompanion linked acyclic h hmemo he
  simp only [ResolveM.after, hrun] at hrecalls hagrees
  generalize r.companionDecl e = x at hagrees
  cases hagrees with
  | kept faithful grows rel find =>
    have hkept : c'.companions.find? id = some known := by rw [find, if_pos rfl]
    exact companion_of_find?
      ((recalls_foldl linked acyclic faithful hrecalls.remembers later).companion hkept)

/-- A failure for a class changes no element, entry or companion, and is the failure ever after. -/
theorem companion_of_error (linked : r.host.Linked) (acyclic : r.host.Acyclic)
    (h : r.Faithful c) (hmemo : r.Remembers c) (he : c.element? id = some (.type e))
    {err : ResolveError} (hrun : r.companion id c = .error err c') :
    c.SameElements c' ∧ ∀ later : List Operation,
      ∃ c'', r.companion id (later.foldl r.run c') = .error err c'' := by
  have hrecalls := recalls_companion linked acyclic h hmemo id
  have hagrees := agreesCompanion linked acyclic h hmemo he
  simp only [ResolveM.after, hrun] at hrecalls hagrees
  generalize hx : r.companionDecl e = x at hagrees
  cases hagrees with
  | failed faithful same =>
    refine ⟨same, fun later => ?_⟩
    have hlater := recalls_foldl linked acyclic faithful hrecalls.remembers later
    have hagrees := agreesCompanion linked acyclic hlater.faithful hlater.remembers
      (hlater.grows.element (same.grows.element he))
    rw [hx] at hagrees
    generalize r.companion id (later.foldl r.run c') = result at hagrees
    cases hagrees with
    | failed _ _ => exact ⟨_, rfl⟩

/-- In every cache that operations lead to, a class has no companion exactly if its descriptor names
none. It has one if only one nested class has the name and this has metadata and can be resolved. The
companion is the type of that class then, and is enclosed by the class it belongs to. What was answered
once is answered ever after, without a change to the cache. A failure leaves the elements, the entries
and the companions as they are, and is the same ever after. -/
theorem companion_runAll {t : DeclTree} (built : t.Built) (acyclic : t.toHost.Acyclic)
    (config : Config) (ops : List Operation) :
    let r : Resolver := ⟨t.toHost, config⟩
    let c := r.runAll ops
    ∀ id e, c.element? id = some (.type e) →
      (∃ metadata, r.host.metadata e.host = some (.ofClass metadata) ∧
        ((∃ c', r.companion id c = .ok none c') ↔ metadata.descriptor.companionName = none) ∧
        (∀ name candidate inner i c₁,
          metadata.strings.read? metadata.descriptor.companionName = .ok (some name) →
          ((r.host.enclosed e.host).filter fun d =>
            r.host.kind d = .classType ∧ r.host.simpleName d = name) = [candidate] →
          r.host.metadata candidate = some (.ofClass inner) →
          r.resolve candidate c = .ok (some i) c₁ →
          ∃ companion c', r.companion id c = .ok (some companion) c') ∧
        ∀ companion c', r.companion id c = .ok (some companion) c' →
          ∃ name candidate t,
            metadata.strings.read? metadata.descriptor.companionName = .ok (some name) ∧
            ((r.host.enclosed e.host).filter fun d =>
              r.host.kind d = .classType ∧ r.host.simpleName d = name) = [candidate] ∧
            c'.element? companion = some (.type t) ∧ t.host = candidate ∧
            c'.get? candidate = some companion ∧
            r.enclosingElement companion c' = .ok (some id) c') ∧
      (∀ known c', r.companion id c = .ok known c' → ∀ later : List Operation,
        let c'' := later.foldl r.run c'
        r.companion id c'' = .ok known c'') ∧
      ∀ err c', r.companion id c = .error err c' →
        c'.elements = c.elements ∧ c'.byDecl = c.byDecl ∧ c'.companions = c.companions ∧
          ∀ later : List Operation,
            ∃ c'', r.companion id (later.foldl r.run c') = .error err c'' := by
  intro r c id e he
  have linked : r.host.Linked := built.linked.toHost
  obtain ⟨h, -, hmemo, -⟩ : r.Recalls {} c :=
    recalls_foldl linked acyclic (faithful_empty r) (remembers_empty r) ops
  obtain ⟨metadata, hmetadata, hname⟩ := h.exists_companionName linked he
  refine ⟨⟨metadata, hmetadata, ?_, fun name candidate inner i c₁ hread hcandidate hinner hrun => ?_,
    fun companion c' hrun => ?_⟩, fun known c' hrun later => ?_, fun err c' hrun => ?_⟩
  · rw [companion_eq_none_iff linked acyclic h hmemo he, StringTable.eq_none_iff_of_read? hname]
  · rw [← companionCandidates_eq] at hcandidate
    exact exists_companion_of_resolve linked acyclic h hmemo he
      (Except.ok.inj (hname.symm.trans hread)) hcandidate hinner hrun
  · obtain ⟨name, candidate, t, hname', hcandidate, ht, hhost, hentry, hencloses⟩ :=
      companion_eq_some linked acyclic h hmemo he hrun
    refine ⟨name, candidate, t, hname' ▸ hname, ?_, ht, hhost, hentry, hencloses⟩
    rw [← companionCandidates_eq]
    exact hcandidate
  · exact companion_of_ok linked acyclic h hmemo he hrun later
  · obtain ⟨hsame, hlater⟩ := companion_of_error linked acyclic h hmemo he hrun
    exact ⟨hsame.elements, hsame.byDecl, hsame.companions, hlater⟩

/-- The resolver for the class with the property, of which the companion has metadata without a single
string. -/
def ofUnreadable : Resolver :=
  ⟨(DeclTree.propertied .propertied .withoutStrings).toHost, {}⟩

private theorem companion_eq_propertied :
    ofPropertied.companion ⟨0⟩ Cache.propertied =
      .ok (some ⟨2⟩) (ResolveM.after (ofPropertied.companion ⟨0⟩) Cache.propertied) := by
  decide +kernel

private theorem resolve_unreadable :
    ofUnreadable.resolve ⟨3⟩ {} = .ok (some ⟨1⟩) Cache.propertied := by
  decide +kernel

private theorem companion_unreadable :
    ofUnreadable.companion ⟨0⟩ Cache.propertied =
      .error (.metadata (.stringOutOfRange ⟨0⟩ 0))
        (ResolveM.after (ofUnreadable.companion ⟨0⟩) Cache.propertied) := by
  decide +kernel

/-- The companion of the class is in the class, whatever follows. Without a name that can be read it
fails whenever it is asked for. -/
theorem companion_propertied :
    (∃ c' t, ofPropertied.companion ⟨0⟩ (ofPropertied.runAll [.resolve ⟨3⟩]) = .ok (some ⟨2⟩) c' ∧
      c'.element? ⟨2⟩ = some (.type t) ∧
      ofPropertied.enclosingElement ⟨2⟩ c' = .ok (some ⟨0⟩) c' ∧
      ∀ later : List Operation,
        ∃ c'', ofPropertied.companion ⟨0⟩ (later.foldl ofPropertied.run c') =
          .ok (some ⟨2⟩) c'') ∧
    ∃ err c', ofUnreadable.companion ⟨0⟩ (ofUnreadable.runAll [.resolve ⟨3⟩]) = .error err c' ∧
      c'.companions = Cache.propertied.companions ∧
      ∀ later : List Operation,
        ∃ c'', ofUnreadable.companion ⟨0⟩ (later.foldl ofUnreadable.run c') = .error err c'' := by
  have hall (inner : ClassMetadata) := companion_runAll (DeclTree.built_propertied .propertied inner)
    (DeclTree.acyclic_propertied .propertied inner) {} [.resolve ⟨3⟩]
  obtain ⟨e, he⟩ : ∃ e, Cache.propertied.element? ⟨0⟩ = some (.type e) := ⟨_, rfl⟩
  have hc : ofPropertied.runAll [.resolve ⟨3⟩] = Cache.propertied := runAll_propertied []
  have hc' : ofUnreadable.runAll [.resolve ⟨3⟩] = Cache.propertied := by
    simp only [runAll, List.foldl_cons, List.foldl_nil, run, ResolveM.after, resolve_unreadable]
  constructor
  · have hrun := companion_eq_propertied
    rw [← hc] at hrun
    obtain ⟨⟨metadata, -, -, -, hsome⟩, hlater, -⟩ := hall .companion ⟨0⟩ e (hc ▸ he)
    obtain ⟨name, candidate, t, -, -, ht, -, -, hencloses⟩ := hsome _ _ hrun
    exact ⟨_, t, hrun, ht, hencloses, fun later => ⟨_, hlater _ _ hrun later⟩⟩
  · have hrun := companion_unreadable
    rw [← hc'] at hrun
    obtain ⟨-, -, hfails⟩ := hall .withoutStrings ⟨0⟩ e (hc' ▸ he)
    obtain ⟨-, -, hcompanions, hlater⟩ := hfails _ _ hrun
    exact ⟨_, _, hrun, hcompanions.trans (congrArg Cache.companions hc'), hlater⟩

end Resolver

end Correspondence
