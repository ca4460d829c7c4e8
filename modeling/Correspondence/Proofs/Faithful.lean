import Correspondence.Proofs.Claims

/-!
# Faithful caches

What a cache keeps is what the declarations stand for without one. Adding an element, an alias or a
batch keeps it so.
-/

namespace Correspondence

namespace Cache

variable {c c' : Cache}

/-- Whether a cache has grown into another one, with all its elements as they were. -/
structure Grows (c c' : Cache) : Prop where
  element {id : ElementId} {e : Element} : c.element? id = some e → c'.element? id = some e
  entry {d : DeclId} {id : ElementId} : c.get? d = some id → c'.get? d = some id

theorem Grows.refl (c : Cache) : c.Grows c :=
  ⟨id, id⟩

theorem Grows.trans {c'' : Cache} (h : c.Grows c') (h' : c'.Grows c'') : c.Grows c'' :=
  ⟨fun he => h'.element (h.element he), fun hd => h'.entry (h.entry hd)⟩

/-- Whether the elements and claims of a batch are in the cache, `n` numbers later. -/
structure Places (c : Cache) (b : Batch) (n : Nat) : Prop where
  element {id : ElementId} {e : Element} :
    b.get? id = some e → c.element? (id.shift n) = some (e.mapIds (.shift n))
  claim {d : DeclId} {id : ElementId} : b.claims.find? d = some id → c.get? d = some (id.shift n)

theorem Places.mono {b : Batch} {n : Nat} (h : c.Places b n) (hc : c.Grows c') : c'.Places b n :=
  ⟨fun he => hc.element (h.element he), fun hd => hc.entry (h.claim hd)⟩

theorem element?_insert (c : Cache) (d : DeclId) (e : Element) (id : ElementId) :
    (c.insert d e).element? id = if id = c.next then some e else c.element? id := by
  obtain ⟨i⟩ := id
  simp [element?, insert, next, size, Array.getElem?_push]

theorem element?_insert_next (c : Cache) (d : DeclId) (e : Element) :
    (c.insert d e).element? c.next = some e := by
  rw [element?_insert, if_pos rfl]

theorem get?_insert (c : Cache) (d : DeclId) (e : Element) (x : DeclId) :
    (c.insert d e).get? x = if x = d then some c.next else c.get? x :=
  Lookup.find?_insert _ _ _ _

theorem get?_identify (c : Cache) (d : DeclId) (id : ElementId) (x : DeclId) :
    (c.identify d id).get? x = if x = d then some id else c.get? x :=
  Lookup.find?_insert _ _ _ _

@[simp] theorem element?_identify (c : Cache) (d : DeclId) (id j : ElementId) :
    (c.identify d id).element? j = c.element? j := rfl

theorem get?_commit (c : Cache) (b : Batch) (x : DeclId) :
    (c.commit b).get? x = (b.claims.find? x).or (c.get? x) :=
  Lookup.find?_extend _ _ _

theorem ne_next_of_element? {id : ElementId} {e : Element} (h : c.element? id = some e) :
    id ≠ c.next := by
  rintro rfl
  simp [element?, next, size] at h

theorem Grows.insert {d : DeclId} (hd : c.get? d = none) (e : Element) :
    c.Grows (c.insert d e) := by
  refine ⟨fun he => ?_, fun {x} id hx => ?_⟩
  · rw [element?_insert, if_neg (ne_next_of_element? he), he]
  · have hne : x ≠ d := fun h => by simp [h, hd] at hx
    rw [get?_insert, if_neg hne, hx]

theorem Grows.identify {d : DeclId} (hd : c.get? d = none) (id : ElementId) :
    c.Grows (c.identify d id) := by
  refine ⟨fun he => he, fun {x} j hx => ?_⟩
  have hne : x ≠ d := fun h => by simp [h, hd] at hx
  rw [get?_identify, if_neg hne, hx]

/-- The elements of a batch come after those that the cache has. -/
theorem element?_commit_shift {b : Batch} (hb : b.base = 0) (id : ElementId) :
    (c.commit (b.shift c.size)).element? id =
      if id.index < c.size then c.element? id
      else (b.get? ⟨id.index - c.size⟩).map (Element.mapIds (.shift c.size)) := by
  simp only [element?, commit, Batch.shift, size, Batch.get?, hb, Array.getElem?_append]
  split <;> simp

theorem places_commit {b : Batch} (hb : b.base = 0) :
    (c.commit (b.shift c.size)).Places b c.size := by
  constructor
  · intro id e he
    have hlt : ¬ (id.shift c.size).index < c.size := by simp [ElementId.shift]
    have hsub : (⟨(id.shift c.size).index - c.size⟩ : ElementId) = id := by
      obtain ⟨i⟩ := id
      simp [ElementId.shift]
    rw [element?_commit_shift hb, if_neg hlt, hsub, he]
    rfl
  · intro d id hd
    have hfind : (b.shift c.size).claims.find? d = (b.claims.find? d).map (.shift c.size) :=
      Lookup.find?_map _ _ _
    rw [get?_commit, hfind, hd]
    rfl

end Cache

/-- Whether an element stands in the batch of a class or file. -/
def Element.isStaged : Element → Bool
  | .package _ | .implicit _ => false
  | _ => true

/-- Whether an element of the cache has the given origin. -/
def Origin.Holds (r : Resolver) (c : Cache) : Origin → ElementId → Prop
  | .package decl, id =>
    c.element? id = some (.package { host := decl, name := r.host.simpleName decl })
  | .staged container place, id =>
    ∃ b n, r.batch? container = some b ∧ c.Places b n ∧ id = place.shift n ∧
      ∃ e, b.get? place = some e
  | .implicit decl kind, id =>
    c.element? id =
      some (.implicit { host := decl, kind, name := r.host.simpleName decl, owner := none })
  | .implicitIn o decl kind, id =>
    ∃ owner, o.Holds r c owner ∧ owner.index < id.index ∧ c.element? id =
      some (.implicit { host := decl, kind, name := r.host.simpleName decl, owner := some owner })

theorem Origin.Holds.mono {r : Resolver} {c c' : Cache} {o : Origin} {id : ElementId}
    (h : o.Holds r c id) (hc : c.Grows c') : o.Holds r c' id := by
  induction o generalizing id with
  | package decl => exact hc.element h
  | staged container place =>
    obtain ⟨b, n, hb, hplaces, hid⟩ := h
    exact ⟨b, n, hb, hplaces.mono hc, hid⟩
  | implicit decl kind => exact hc.element h
  | implicitIn o decl kind ih =>
    obtain ⟨owner, howner, hlt, he⟩ := h
    exact ⟨owner, ih howner, hlt, hc.element he⟩

theorem Origin.Holds.exists_element {r : Resolver} {c : Cache} {o : Origin} {id : ElementId}
    (h : o.Holds r c id) : ∃ e, c.element? id = some e := by
  cases o with
  | package decl => exact ⟨_, h⟩
  | staged container place =>
    obtain ⟨b, n, -, hplaces, rfl, e, he⟩ := h
    exact ⟨_, hplaces.element he⟩
  | implicit decl kind => exact ⟨_, h⟩
  | implicitIn o decl kind =>
    obtain ⟨owner, -, -, he⟩ := h
    exact ⟨_, he⟩

theorem Origin.Holds.lt_next {r : Resolver} {c : Cache} {o : Origin} {id : ElementId}
    (h : o.Holds r c id) : id.index < c.next.index := by
  obtain ⟨e, he⟩ := h.exists_element
  exact (Array.getElem?_eq_some_iff.mp he).1

theorem Origin.Holds.exists_places {r : Resolver} {c : Cache} {container : DeclId}
    {place id : ElementId} {b : Batch} (h : Origin.Holds r c (.staged container place) id)
    (hb : r.batch? container = some b) :
    ∃ n e, c.Places b n ∧ id = place.shift n ∧ b.get? place = some e := by
  obtain ⟨b', n, hb', hplaces, hid, e, he⟩ := h
  obtain rfl := Option.some.inj (hb.symm.trans hb')
  exact ⟨n, e, hplaces, hid, he⟩

namespace Resolver

variable {r : Resolver} {c c' : Cache} {d : DeclId}

/-- Whether all that a cache keeps is what the declarations stand for without one. -/
structure Faithful (r : Resolver) (c : Cache) : Prop where
  carrier {d : DeclId} {x : Option DeclId} : c.carriers.find? d = some x → x = r.host.carrier d
  entry {d : DeclId} {id : ElementId} :
    c.get? d = some id → ∃ o, r.origin d = .ok (some o) ∧ o.Holds r c id
  /-- What an element stands for is entered for it. -/
  filed {id : ElementId} {e : Element} {d : DeclId} :
    c.element? id = some e → d ∈ e.hostForms → c.get? d = some id
  held {id : ElementId} {e : Element} : c.element? id = some e → ∃ o : Origin, o.Holds r c id

theorem faithful_empty (r : Resolver) : r.Faithful {} := by
  constructor
  · intro d x h
    simp at h
  · intro d id h
    simp [Cache.get?] at h
  · intro id e d h
    simp [Cache.element?] at h
  · intro id e h
    simp [Cache.element?] at h

/-- A declaration stands for one element of the cache only. -/
theorem Faithful.id_unique (h : r.Faithful c) {id id' : ElementId} {e e' : Element}
    (he : c.element? id = some e) (he' : c.element? id' = some e') (hd : d ∈ e.hostForms)
    (hd' : d ∈ e'.hostForms) : id = id' :=
  Option.some.inj ((h.filed he hd).symm.trans (h.filed he' hd'))

/-- An element of a class or file is the one at its place in the batch. -/
theorem Faithful.exists_places (h : r.Faithful c) {id : ElementId} {e : Element}
    (he : c.element? id = some e) (hstaged : e.isStaged) :
    ∃ container b n place e₀, r.batch? container = some b ∧ c.Places b n ∧
      id = place.shift n ∧ b.get? place = some e₀ ∧ e = e₀.mapIds (.shift n) := by
  obtain ⟨o, ho⟩ := h.held he
  cases o with
  | package decl =>
    obtain rfl := Option.some.inj (he.symm.trans ho)
    cases hstaged
  | implicit decl kind =>
    obtain rfl := Option.some.inj (he.symm.trans ho)
    cases hstaged
  | implicitIn o decl kind =>
    obtain ⟨owner, -, -, hel⟩ := ho
    obtain rfl := Option.some.inj (he.symm.trans hel)
    cases hstaged
  | staged container place =>
    obtain ⟨b, n, hb, hplaces, hid, e₀, he₀⟩ := ho
    exact ⟨container, b, n, place, e₀, hb, hplaces, hid, he₀,
      Option.some.inj (he.symm.trans (hid ▸ hplaces.element he₀))⟩

theorem Faithful.insert (h : r.Faithful c) (hd : c.get? d = none) {e : Element}
    (hforms : e.hostForms = [d]) {o : Origin} (horigin : r.origin d = .ok (some o))
    (hholds : o.Holds r (c.insert d e) c.next) : r.Faithful (c.insert d e) := by
  have hgrows := Cache.Grows.insert hd e
  constructor
  · exact h.carrier
  · intro x id hx
    rw [Cache.get?_insert] at hx
    split at hx
    · rename_i hxd
      obtain rfl := Option.some.inj hx
      exact ⟨o, hxd ▸ horigin, hholds⟩
    · obtain ⟨o', ho', hholds'⟩ := h.entry hx
      exact ⟨o', ho', hholds'.mono hgrows⟩
  · intro id e' x he hx
    rw [Cache.element?_insert] at he
    split at he
    · rename_i hid
      obtain rfl := Option.some.inj he
      rw [hforms, List.mem_singleton] at hx
      rw [Cache.get?_insert, if_pos hx, hid]
    · exact hgrows.entry (h.filed he hx)
  · intro id e' he
    rw [Cache.element?_insert] at he
    split at he
    · rename_i hid
      exact ⟨o, hid ▸ hholds⟩
    · exact (h.held he).imp fun _ hholds' => hholds'.mono hgrows

theorem Faithful.identify (h : r.Faithful c) (hd : c.get? d = none) {id : ElementId} {o : Origin}
    (horigin : r.origin d = .ok (some o)) (hholds : o.Holds r c id) :
    r.Faithful (c.identify d id) := by
  have hgrows := Cache.Grows.identify hd id
  constructor
  · exact h.carrier
  · intro x j hx
    rw [Cache.get?_identify] at hx
    split at hx
    · rename_i hxd
      obtain rfl := Option.some.inj hx
      exact ⟨o, hxd ▸ horigin, hholds.mono hgrows⟩
    · obtain ⟨o', ho', hholds'⟩ := h.entry hx
      exact ⟨o', ho', hholds'.mono hgrows⟩
  · intro j e x he hx
    exact hgrows.entry (h.filed he hx)
  · intro j e he
    exact (h.held he).imp fun _ hholds' => hholds'.mono hgrows

theorem base_of_batch? (linked : r.host.Linked) {container : DeclId} {b : Batch}
    (hb : r.batch? container = some b) : b.base = 0 := by
  obtain ⟨-, -, hcomplete⟩ := batch?_eq_some linked hb
  obtain ⟨e, he, -⟩ := hcomplete.container
  have he : b.get? ⟨0⟩ = some e := he
  unfold Batch.get? at he
  split at he
  · cases he
  · rename_i hlt
    exact Nat.eq_zero_of_not_pos hlt

/-- Where something that a batch claims is entered, the batch is in the cache. -/
theorem Faithful.places_of_claimed (h : r.Faithful c) (linked : r.host.Linked)
    (acyclic : r.host.Acyclic) {container : DeclId} {b : Batch} (hb : r.batch? container = some b)
    {place id : ElementId} (hclaim : b.claims.find? d = some place) (hd : c.get? d = some id) :
    ∃ n, c.Places b n ∧ id = place.shift n := by
  obtain ⟨o, ho, hholds⟩ := h.entry hd
  rw [origin_of_claimed linked acyclic hb hclaim] at ho
  obtain rfl := Option.some.inj (Except.ok.inj ho)
  obtain ⟨n, -, hplaces, hid, -⟩ := hholds.exists_places hb
  exact ⟨n, hplaces, hid⟩

/-- A place in a batch is that of one element of the cache only. -/
theorem staged_unique (linked : r.host.Linked) {container : DeclId} {place id id' : ElementId}
    (h : Origin.Holds r c (.staged container place) id)
    (h' : Origin.Holds r c (.staged container place) id') : id = id' := by
  obtain ⟨b, n, hb, hplaces, rfl, -⟩ := h
  obtain ⟨n', -, hplaces', rfl, -⟩ := h'.exists_places hb
  have hown := claim_of_batch? linked hb
  have hsame := Option.some.inj ((hplaces.claim hown).symm.trans (hplaces'.claim hown))
  have hn : n = n' := congrArg ElementId.index hsame
  rw [hn]

/-- A batch claims nothing that is entered already, unless its class or file is. -/
theorem Faithful.grows_commit (h : r.Faithful c) (linked : r.host.Linked)
    (acyclic : r.host.Acyclic) {container : DeclId} {b : Batch}
    (hb : r.batch? container = some b) (hnew : c.get? container = none) :
    c.Grows (c.commit (b.shift c.size)) := by
  constructor
  · intro id e he
    have hlt : id.index < c.size := (Array.getElem?_eq_some_iff.mp he).1
    rw [Cache.element?_commit_shift (base_of_batch? linked hb), if_pos hlt, he]
  · intro x id hx
    have hfree : b.claims.find? x = none := by
      cases hclaim : b.claims.find? x with
      | none => rfl
      | some place =>
        obtain ⟨n, hplaces, -⟩ := h.places_of_claimed linked acyclic hb hclaim hx
        have hentry := hplaces.claim (claim_of_batch? linked hb)
        rw [hnew] at hentry
        cases hentry
    have hfind : (b.shift c.size).claims.find? x = (b.claims.find? x).map (.shift c.size) :=
      Lookup.find?_map _ _ _
    rw [Cache.get?_commit, hfind, hfree, hx]
    rfl

theorem Faithful.commit (h : r.Faithful c) (linked : r.host.Linked) (acyclic : r.host.Acyclic)
    {container : DeclId} {b : Batch} (hb : r.batch? container = some b)
    (hnew : c.get? container = none) : r.Faithful (c.commit (b.shift c.size)) := by
  have hgrows := h.grows_commit linked acyclic hb hnew
  have hbase := base_of_batch? linked hb
  have hsound := sound_of_batch? linked hb
  have hplaces : (c.commit (b.shift c.size)).Places b c.size := Cache.places_commit hbase
  constructor
  · exact h.carrier
  · intro x id hx
    cases hclaim : b.claims.find? x with
    | none =>
      have hfind : (b.shift c.size).claims.find? x = (b.claims.find? x).map (.shift c.size) :=
        Lookup.find?_map _ _ _
      rw [Cache.get?_commit, hfind, hclaim] at hx
      obtain ⟨o, ho, hholds⟩ := h.entry hx
      exact ⟨o, ho, hholds.mono hgrows⟩
    | some place =>
      obtain ⟨e, he, -⟩ := hsound.claimed.mp hclaim
      obtain rfl := Option.some.inj ((hplaces.claim hclaim).symm.trans hx)
      exact ⟨_, origin_of_claimed linked acyclic hb hclaim, b, _, hb, hplaces, rfl, e, he⟩
  · intro id e x he hx
    rw [Cache.element?_commit_shift hbase] at he
    split at he
    · exact hgrows.entry (h.filed he hx)
    · rename_i hle
      obtain ⟨e₀, he₀, rfl⟩ := Option.map_eq_some_iff.mp he
      rw [Element.hostForms_mapIds] at hx
      rw [hplaces.claim (hsound.claimed.mpr ⟨e₀, he₀, hx⟩),
        ElementId.shift_sub (Nat.le_of_not_lt hle)]
  · intro id e he
    rw [Cache.element?_commit_shift hbase] at he
    split at he
    · exact (h.held he).imp fun _ hholds => hholds.mono hgrows
    · rename_i hle
      obtain ⟨e₀, he₀, -⟩ := Option.map_eq_some_iff.mp he
      exact ⟨.staged container _, b, _, hb, hplaces,
        (ElementId.shift_sub (Nat.le_of_not_lt hle)).symm, e₀, he₀⟩

end Resolver

end Correspondence
