import Correspondence.Building
import Correspondence.Proofs.Indexing
import Correspondence.Proofs.Listing

/-!
# Batches

An element is made in one step with its claims. Between two such steps the claims of a batch are
exactly the compiled declarations that its elements stand for.
-/

namespace Correspondence

namespace Batch

variable {b b' : Batch}

theorem get?_push (b : Batch) (e : Element) (id : ElementId) :
    (b.push e).get? id = if id = b.next then some e else b.get? id := by
  obtain ⟨i⟩ := id
  simp only [get?, push, next, ElementId.mk.injEq, Array.getElem?_push]
  by_cases hlt : i < b.base
  · have hne : i ≠ b.base + b.elements.size := by omega
    simp [hlt, hne]
  · have hiff : i - b.base = b.elements.size ↔ i = b.base + b.elements.size := by omega
    simp [hlt, hiff]

theorem get?_modify (b : Batch) (target : ElementId) (change : Element → Element)
    (id : ElementId) :
    (b.modify target change).get? id =
      if target = id then (b.get? id).map change else b.get? id := by
  obtain ⟨i⟩ := id
  obtain ⟨k⟩ := target
  simp only [get?, modify, ElementId.mk.injEq]
  by_cases hk : k < b.base
  · have hne : i < b.base ∨ k ≠ i := by omega
    by_cases hi : i < b.base
    · simp [hk, hi]
    · have hki : k ≠ i := hne.resolve_left hi
      simp [hk, hki]
  · by_cases hi : i < b.base
    · simp [hk, hi]
    · have hiff : k - b.base = i - b.base ↔ k = i := by omega
      simp [hk, hi, Array.getElem?_modify, hiff]

theorem get?_modify_self {id : ElementId} {e : Element} (h : b.get? id = some e)
    (change : Element → Element) : (b.modify id change).get? id = some (change e) := by
  rw [get?_modify, if_pos rfl, h, Option.map_some]

@[simp] theorem get?_next (b : Batch) : b.get? b.next = none := by
  simp [get?, next]

@[simp] theorem claims_modify (b : Batch) (target : ElementId) (change : Element → Element) :
    (b.modify target change).claims = b.claims := by
  unfold modify
  split <;> rfl

@[simp] theorem base_modify (b : Batch) (target : ElementId) (change : Element → Element) :
    (b.modify target change).base = b.base := by
  unfold modify
  split <;> rfl

/-- Whether a batch has grown into another one, with all its elements and claims as they were. -/
structure Extends (b b' : Batch) : Prop where
  base : b'.base = b.base
  element {id : ElementId} {e : Element} : b.get? id = some e → b'.get? id = some e
  claim {d : DeclId} {id : ElementId} : b.claims.find? d = some id → b'.claims.find? d = some id

theorem Extends.refl (b : Batch) : b.Extends b :=
  ⟨rfl, id, id⟩

theorem Extends.trans {b'' : Batch} (h : b.Extends b') (h' : b'.Extends b'') : b.Extends b'' :=
  ⟨h'.base.trans h.base, fun he => h'.element (h.element he), fun hc => h'.claim (h.claim hc)⟩

/-- Whether the numbers are those of the elements, one by one. -/
def LinesUp (b : Batch) (ids : List ElementId) (es : List Element) : Prop :=
  List.Forall₂ (fun id e => b.get? id = some e) ids es

theorem linesUp_map_iff {α : Type} {f : α → Element} {ids : List ElementId} {l : List α} :
    b.LinesUp ids (l.map f) ↔ List.Forall₂ (fun x id => b.get? id = some (f x)) l ids := by
  rw [LinesUp, List.forall₂_map_right_iff]
  exact ⟨fun h => h.flip, fun h => h.flip⟩

theorem LinesUp.mono {ids : List ElementId} {es : List Element} (h : b.LinesUp ids es)
    (hb : b.Extends b') : b'.LinesUp ids es :=
  h.imp fun _ _ => hb.element

theorem LinesUp.exists_of_mem {ids : List ElementId} {es : List Element} (h : b.LinesUp ids es)
    {id : ElementId} (hid : id ∈ ids) : ∃ e ∈ es, b.get? id = some e :=
  exists_of_mem_forall₂ h.flip hid

theorem LinesUp.exists_of_getElem? {ids : List ElementId} {es : List Element} (h : b.LinesUp ids es)
    {i : Nat} {id : ElementId} (hid : ids[i]? = some id) :
    ∃ e, es[i]? = some e ∧ b.get? id = some e :=
  exists_getElem?_of_forall₂ h.flip hid

theorem LinesUp.exists_get? {ids : List ElementId} {es : List Element} (h : b.LinesUp ids es)
    {id : ElementId} (hid : id ∈ ids) : ∃ e, b.get? id = some e := by
  obtain ⟨e, -, he⟩ := h.exists_of_mem hid
  exact ⟨e, he⟩

theorem LinesUp.exists_of_mem_right {ids : List ElementId} {es : List Element}
    (h : b.LinesUp ids es) {e : Element} (he : e ∈ es) : ∃ id ∈ ids, b.get? id = some e :=
  exists_of_mem_forall₂ h he

theorem LinesUp.modify {ids : List ElementId} {es : List Element} (h : b.LinesUp ids es)
    {id : ElementId} {e : Element} (he : b.get? id = some e) (hes : e ∉ es)
    (change : Element → Element) : (b.modify id change).LinesUp ids es := by
  induction h with
  | nil => exact .nil
  | @cons j e' _ _ hj _ ih =>
    obtain ⟨hne, hes⟩ := List.ne_and_not_mem_of_not_mem_cons hes
    refine .cons ?_ (ih hes)
    have hid : id ≠ j := fun hij => hne (Option.some.inj (he.symm.trans (hij ▸ hj)))
    rw [get?_modify, if_neg hid, hj]

theorem Extends.modify (h : b.Extends b') {id : ElementId} (hid : b.get? id = none)
    (change : Element → Element) : b.Extends (b'.modify id change) := by
  refine ⟨(base_modify _ _ _).trans h.base, fun {j} e hj => ?_, fun hc => ?_⟩
  · have hne : id ≠ j := fun hij => by simp [hij, hj] at hid
    rw [get?_modify, if_neg hne, h.element hj]
  · rw [claims_modify, h.claim hc]

/-- Whether a batch has grown by some elements, each of which is new, and by what belongs to them. -/
structure Makes (b b' : Batch) (ids : List ElementId) : Prop extends Extends b b' where
  nodup : ids.Nodup
  fresh {id : ElementId} : id ∈ ids → b.get? id = none
  made {id : ElementId} : id ∈ ids → ∃ e, b'.get? id = some e
  new {id : ElementId} {e : Element} : b'.get? id = some e →
    b.get? id = some e ∨ id ∈ ids ∨ ∃ owner ∈ ids, e.owner? = some owner

theorem Makes.refl (b : Batch) : b.Makes b [] where
  toExtends := .refl b
  nodup := .nil
  fresh h := by cases h
  made h := by cases h
  new := .inl

theorem Makes.trans {b'' : Batch} {ids ids' : List ElementId} (h : b.Makes b' ids)
    (h' : b'.Makes b'' ids') : b.Makes b'' (ids ++ ids') where
  toExtends := h.toExtends.trans h'.toExtends
  nodup := by
    refine List.nodup_append.mpr ⟨h.nodup, h'.nodup, fun id hid id' hid' heq => ?_⟩
    obtain ⟨e, he⟩ := h.made hid
    rw [heq, h'.fresh hid'] at he
    cases he
  fresh {id} hid := by
    rcases List.mem_append.mp hid with hid | hid
    · exact h.fresh hid
    · cases he : b.get? id with
      | none => rfl
      | some e => exact absurd (h'.fresh hid) (by simp [h.element he])
  made hid := by
    rcases List.mem_append.mp hid with hid | hid
    · exact (h.made hid).imp fun _ => h'.element
    · exact h'.made hid
  new he := by
    simp only [List.mem_append]
    rcases h'.new he with he | hid | ⟨owner, howner, ho⟩
    · rcases h.new he with he | hid | ⟨owner, howner, ho⟩
      · exact .inl he
      · exact .inr (.inl (.inl hid))
      · exact .inr (.inr ⟨owner, .inl howner, ho⟩)
    · exact .inr (.inl (.inr hid))
    · exact .inr (.inr ⟨owner, .inr howner, ho⟩)

theorem Makes.perm {ids ids' : List ElementId} (h : b.Makes b' ids) (hperm : ids.Perm ids') :
    b.Makes b' ids' where
  toExtends := h.toExtends
  nodup := hperm.nodup_iff.mp h.nodup
  fresh hid := h.fresh (hperm.mem_iff.mpr hid)
  made hid := h.made (hperm.mem_iff.mpr hid)
  new he := by
    simp only [← hperm.mem_iff]
    exact h.new he

/-- What belongs to an element that was there before is among those that were made for it. -/
theorem Makes.mem_of_owner? {ids : List ElementId} (h : b.Makes b' ids) {id owner : ElementId}
    {e o : Element} (he : b'.get? id = some e) (ho : b.get? owner = some o)
    (howner : e.owner? = some owner) : b.get? id = some e ∨ id ∈ ids := by
  rcases h.new he with he | hid | ⟨owner', hmem, howner'⟩
  · exact .inl he
  · exact .inr hid
  · obtain rfl := Option.some.inj (howner.symm.trans howner')
    rw [h.fresh hmem] at ho
    cases ho

end Batch

namespace BuildM

variable {α β : Type} {b b' : Batch}

theorem bind_eq_ok_iff {x : BuildM α} {f : α → BuildM β} {p : β × Batch} :
    (x >>= f) b = .ok p ↔ ∃ a b', x b = .ok (a, b') ∧ f a b' = .ok p :=
  StateT.bind_eq_ok_iff

theorem bind_eq_error_iff {x : BuildM α} {f : α → BuildM β} {e : ResolveError} :
    (x >>= f) b = .error e ↔ x b = .error e ∨ ∃ a b', x b = .ok (a, b') ∧ f a b' = .error e := by
  change (x b >>= fun q => f q.1 q.2) = .error e ↔ _
  cases h : x b with
  | error e' => simp [bind, Except.bind]
  | ok q => obtain ⟨a, b'⟩ := q; simp [bind, Except.bind]

theorem pure_eq_ok_iff {a a' : α} : (pure a : BuildM α) b = .ok (a', b') ↔ a' = a ∧ b' = b :=
  StateT.pure_eq_ok_iff

theorem lift_eq_ok_iff {x : Except ResolveError α} {a : α} :
    (StateT.lift x : BuildM α) b = .ok (a, b') ↔ x = .ok a ∧ b' = b := by
  change (x >>= fun a => Except.ok (a, b)) = .ok (a, b') ↔ _
  cases x with
  | error e => simp [bind, Except.bind]
  | ok a' => simp [bind, Except.bind, eq_comm]

theorem lift_eq_error_iff {x : Except ResolveError α} {e : ResolveError} :
    (StateT.lift x : BuildM α) b = .error e ↔ x = .error e := by
  change (x >>= fun a => Except.ok (a, b)) = .error e ↔ _
  cases x <;> simp [bind, Except.bind]

theorem throw_ne_ok {e : ResolveError} {p : α × Batch} : (throw e : BuildM α) b ≠ .ok p := by
  intro h
  cases h

/-- What every step keeps, a list of steps keeps; and what each step leads to is still there at the
end, if it stays once it is there. Each step makes one element, and what belongs to it. -/
theorem mapM_ok {I : Batch → Prop} {f : α → BuildM β} {Q : α → β → Batch → Prop}
    {g : β → ElementId} {l : List α}
    (step : ∀ x ∈ l, ∀ b y b', I b → f x b = .ok (y, b') →
      I b' ∧ b.Makes b' [g y] ∧ Q x y b')
    (stays : ∀ x y b b', b.Extends b' → Q x y b → Q x y b')
    {ys : List β} (hb : I b) (h : l.mapM f b = .ok (ys, b')) :
    I b' ∧ b.Makes b' (ys.map g) ∧ List.Forall₂ (fun x y => Q x y b') l ys := by
  induction l generalizing b ys with
  | nil =>
    rw [List.mapM_nil, pure_eq_ok_iff] at h
    obtain ⟨rfl, rfl⟩ := h
    exact ⟨hb, .refl _, .nil⟩
  | cons x l ih =>
    rw [List.mapM_cons, bind_eq_ok_iff] at h
    obtain ⟨y, b₁, hx, h⟩ := h
    rw [bind_eq_ok_iff] at h
    obtain ⟨ys', b₂, hl, h⟩ := h
    rw [pure_eq_ok_iff] at h
    obtain ⟨rfl, rfl⟩ := h
    obtain ⟨hb₁, hmakes₁, hQ⟩ := step x List.mem_cons_self b y b₁ hb hx
    obtain ⟨hb₂, hmakes₂, hall⟩ := ih (fun x hx => step x (List.mem_cons_of_mem _ hx)) hb₁ hl
    exact ⟨hb₂, hmakes₁.trans hmakes₂, .cons (stays _ _ _ _ hmakes₂.toExtends hQ) hall⟩

/-- Each of the steps in a list that succeeds has succeeded. -/
theorem forall₂_of_mapM_eq_ok {f : α → BuildM β} {l : List α} {ys : List β}
    (h : l.mapM f b = .ok (ys, b')) :
    List.Forall₂ (fun x y => ∃ b₁ b₂, f x b₁ = .ok (y, b₂)) l ys := by
  induction l generalizing b b' ys with
  | nil =>
    obtain ⟨rfl, -⟩ := pure_eq_ok_iff.mp h
    exact .nil
  | cons x l ih =>
    rw [List.mapM_cons, bind_eq_ok_iff] at h
    obtain ⟨y, b₁, hx, h⟩ := h
    obtain ⟨ys', b₂, hl, h⟩ := bind_eq_ok_iff.mp h
    obtain ⟨rfl, -⟩ := pure_eq_ok_iff.mp h
    exact .cons ⟨b, b₁, hx⟩ (ih hl)

/-- A list of steps fails where one of the steps fails. -/
theorem exists_of_mapM_eq_error {f : α → BuildM β} {l : List α} {e : ResolveError}
    (h : l.mapM f b = .error e) : ∃ x ∈ l, ∃ b₁, f x b₁ = .error e := by
  induction l generalizing b with
  | nil => cases h
  | cons x l ih =>
    rw [List.mapM_cons, bind_eq_error_iff] at h
    rcases h with hx | ⟨y, b₁, -, h⟩
    · exact ⟨x, List.mem_cons_self, b, hx⟩
    · rcases bind_eq_error_iff.mp h with hl | ⟨ys, b₂, -, hpure⟩
      · obtain ⟨z, hz, hfails⟩ := ih hl
        exact ⟨z, List.mem_cons_of_mem _ hz, hfails⟩
      · cases hpure

/-- Makes an element and claims all that it stands for. -/
def add (host : Host) (e : Element) : BuildM ElementId := do
  let id ← push e
  claimAll host id e.hostForms
  return id

theorem add_of_hostForms_eq {host : Host} {e : Element} {d : DeclId} (h : e.hostForms = [d]) :
    add host e = do
      let id ← push e
      claim host id d
      return id := by
  simp [add, claimAll, h]

theorem claim_eq_ok {host : Host} {id : ElementId} {d : DeclId} {u : Unit}
    (h : claim host id d b = .ok (u, b')) :
    b'.base = b.base ∧ b'.elements = b.elements ∧
      (∀ x, b'.claims.find? x = if x = d then some id else b.claims.find? x) ∧
      ∀ j, b.claims.find? d = some j → j = id := by
  simp only [claim, Batch.claim] at h
  cases hd : b.claims.find? d with
  | none =>
    simp only [hd, Except.map, Except.ok.injEq, Prod.mk.injEq, true_and] at h
    subst h
    exact ⟨rfl, rfl, fun x => Lookup.find?_insert _ _ _ _, by simp⟩
  | some j =>
    simp only [hd] at h
    split at h
    · rename_i hj
      simp only [Except.map, Except.ok.injEq, Prod.mk.injEq, true_and] at h
      subst hj h
      refine ⟨rfl, rfl, fun x => ?_, fun k hk => (Option.some.inj hk).symm⟩
      split
      · rename_i hx
        rw [hx, hd]
      · rfl
    · simp [Except.map] at h

theorem claimAll_eq_ok {host : Host} {id : ElementId} {ds : List DeclId} {u : Unit}
    (h : claimAll host id ds b = .ok (u, b')) :
    b'.base = b.base ∧ b'.elements = b.elements ∧
      (∀ x, b'.claims.find? x = if x ∈ ds then some id else b.claims.find? x) ∧
      ∀ d ∈ ds, ∀ j, b.claims.find? d = some j → j = id := by
  induction ds generalizing b with
  | nil =>
    obtain ⟨-, rfl⟩ := pure_eq_ok_iff.mp h
    simp
  | cons d ds ih =>
    obtain ⟨v, b₁, hd, hds⟩ := bind_eq_ok_iff.mp h
    obtain ⟨hbase, hels, hclaims, hfree⟩ := claim_eq_ok hd
    obtain ⟨hbase', hels', hclaims', hfree'⟩ := ih hds
    refine ⟨hbase'.trans hbase, hels'.trans hels, fun x => ?_, ?_⟩
    · rw [hclaims', hclaims]
      by_cases hx : x = d <;> by_cases hxs : x ∈ ds <;> simp [hx, hxs]
    · intro x hx j hj
      rcases List.mem_cons.mp hx with rfl | hx
      · exact hfree j hj
      · by_cases hxd : x = d
        · exact hfree j (hxd ▸ hj)
        · exact hfree' x hx j (by rw [hclaims, if_neg hxd]; exact hj)

/-- A claim fails only where another element has claimed the declaration. -/
theorem claim_eq_error {host : Host} {id : ElementId} {d : DeclId} {e : ResolveError}
    (h : claim host id d b = .error e) :
    (∃ j, b.claims.find? d = some j ∧ j ≠ id) ∧
      ∃ earlier later, e = .doubleClaim (host.describe d) earlier later := by
  simp only [claim, Batch.claim] at h
  cases hd : b.claims.find? d with
  | none => simp [hd, Except.map] at h
  | some j =>
    simp only [hd] at h
    split at h
    · simp [Except.map] at h
    · rename_i hj
      simp only [Except.map, Except.error.injEq] at h
      exact ⟨⟨j, rfl, hj⟩, _, _, h.symm⟩

theorem claimAll_eq_error {host : Host} {id : ElementId} {ds : List DeclId} {e : ResolveError}
    (h : claimAll host id ds b = .error e) :
    ∃ d ∈ ds, (∃ j, b.claims.find? d = some j ∧ j ≠ id) ∧
      ∃ earlier later, e = .doubleClaim (host.describe d) earlier later := by
  induction ds generalizing b with
  | nil => cases h
  | cons d ds ih =>
    rcases bind_eq_error_iff.mp h with hd | ⟨u, b₁, hd, hds⟩
    · exact ⟨d, List.mem_cons_self, claim_eq_error hd⟩
    · obtain ⟨x, hx, ⟨j, hj, hne⟩, htext⟩ := ih hds
      refine ⟨x, List.mem_cons_of_mem _ hx, ⟨j, ?_, hne⟩, htext⟩
      -- The first claim is for the same element, so it is not what stands in the way.
      obtain ⟨-, -, hclaims, -⟩ := claim_eq_ok hd
      rw [hclaims] at hj
      split at hj
      · exact absurd (Option.some.inj hj).symm hne
      · exact hj

/-- What making an element changes. -/
structure Added (b : Batch) (e : Element) (id : ElementId) (b' : Batch) : Prop where
  id_eq : id = b.next
  base : b'.base = b.base
  size : b'.elements.size = b.elements.size + 1
  get? (j : ElementId) : b'.get? j = if j = id then some e else b.get? j
  claims (d : DeclId) : b'.claims.find? d = if d ∈ e.hostForms then some id else b.claims.find? d
  /-- Nothing else has claimed what the element stands for. -/
  free {d : DeclId} {j : ElementId} : d ∈ e.hostForms → b.claims.find? d = some j → j = id

theorem added_of_claimAll {host : Host} {e : Element} {id : ElementId} {b₁ : Batch} {u : Unit}
    (hpush : push e b = .ok (id, b₁)) (hclaim : claimAll host id e.hostForms b₁ = .ok (u, b')) :
    Added b e id b' := by
  obtain ⟨rfl, rfl⟩ : b.next = id ∧ b.push e = b₁ := by simpa [push] using hpush
  obtain ⟨hbase, hels, hclaims, hfree⟩ := claimAll_eq_ok hclaim
  have hsize : b'.elements.size = b.elements.size + 1 := by simp [hels, Batch.push]
  refine ⟨rfl, hbase, hsize, fun j => ?_, hclaims, fun hd hj => hfree _ hd _ hj⟩
  rw [← Batch.get?_push]
  simp [Batch.get?, hbase, hels]

theorem add_eq_ok (host : Host) {e : Element} {id : ElementId} (h : add host e b = .ok (id, b')) :
    Added b e id b' := by
  obtain ⟨a, b₁, hpush, h⟩ := bind_eq_ok_iff.mp h
  obtain ⟨u, b₂, hclaim, h⟩ := bind_eq_ok_iff.mp h
  obtain ⟨rfl, rfl⟩ := pure_eq_ok_iff.mp h
  exact added_of_claimAll hpush hclaim

theorem Added.extends {e : Element} {id : ElementId} (h : Added b e id b') : b.Extends b' := by
  refine ⟨h.base, fun {j} _ hj => ?_, fun {d} j hj => ?_⟩
  · have hne : j ≠ id := fun he => by
      rw [he, h.id_eq, Batch.get?_next] at hj
      cases hj
    rw [h.get?, if_neg hne, hj]
  · rw [h.claims]
    split
    · rename_i hd
      rw [h.free hd hj]
    · exact hj

theorem Added.makes {e : Element} {id : ElementId} (h : Added b e id b') : b.Makes b' [id] where
  toExtends := h.extends
  nodup := List.nodup_singleton id
  fresh hid := by
    rw [List.mem_singleton.mp hid, h.id_eq]
    exact Batch.get?_next b
  made hid := ⟨e, by rw [h.get?, if_pos (List.mem_singleton.mp hid)]⟩
  new {j e'} he := by
    rw [h.get?] at he
    split at he
    · exact .inr (.inl (List.mem_singleton.mpr (by assumption)))
    · exact .inl he

/-- The numbers of new elements are beyond those of the others. -/
theorem Added.lt {e e' : Element} {id j : ElementId} (h : Added b e id b')
    (hj : b.get? j = some e') : j.index < id.index := by
  rw [h.id_eq]
  unfold Batch.get? at hj
  split at hj
  · cases hj
  · have hlt := (Array.getElem?_eq_some_iff.mp hj).1
    simp only [Batch.next]
    omega

end BuildM

end Correspondence
