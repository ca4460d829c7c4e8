import Correspondence.Proofs.Batch

/-!
# Likeness up to the order of siblings

Two elements are alike if they differ in nothing but the order in which they list the siblings of
their host. Steps that make such elements, and claim what they stand for in any order, lead from
batches that are alike to batches that are alike.
-/

namespace Correspondence

/-- Whether two elements are the same but for the order of the siblings of their host. -/
inductive Element.Alike : Element → Element → Prop
  | refl (e : Element) : Alike e e
  | function (f : FunctionElement) {overloads : List DeclId} (h : f.overloads.Perm overloads) :
      Alike (.function f) (.function { f with overloads })
  | constructor (f : ConstructorElement) {overloads : List DeclId}
      (h : f.overloads.Perm overloads) :
      Alike (.constructor f) (.constructor { f with overloads })
  | parameter (p : ParameterElement) {overloadHosts : List DeclId}
      (h : p.overloadHosts.Perm overloadHosts) :
      Alike (.parameter p) (.parameter { p with overloadHosts })

/-- Elements that are alike stand for the same compiled declarations. -/
theorem Element.Alike.hostForms_perm {e e' : Element} (h : e.Alike e') :
    e.hostForms.Perm e'.hostForms := by
  cases h with
  | refl => exact .refl _
  | function f h => exact h.cons _
  | constructor f h => exact h.cons _
  | parameter p h => exact h.cons _

namespace Batch

/-- Whether two batches claim the same, for elements that are alike. -/
structure Alike (b b' : Batch) : Prop where
  base : b.base = b'.base
  size : b.elements.size = b'.elements.size
  get? (id : ElementId) : Option.Rel Element.Alike (b.get? id) (b'.get? id)
  claims (d : DeclId) : b.claims.find? d = b'.claims.find? d

variable {b b' : Batch}

theorem Alike.refl (b : Batch) : b.Alike b where
  base := rfl
  size := rfl
  get? id := by
    cases b.get? id with
    | none => exact .none
    | some e => exact .some (.refl e)
  claims _ := rfl

theorem Alike.getElem? (h : b.Alike b') (i : Nat) :
    Option.Rel Element.Alike b.elements[i]? b'.elements[i]? := by
  have hlt : ¬ b.base + i < b.base := by omega
  simpa [Batch.get?, ← h.base, hlt] using h.get? ⟨b.base + i⟩

theorem Alike.next_eq (h : b.Alike b') : b.next = b'.next := by
  simp only [next, h.base, h.size]

theorem Alike.push (h : b.Alike b') {e e' : Element} (he : e.Alike e') :
    (b.push e).Alike (b'.push e') where
  base := h.base
  size := by simp [Batch.push, h.size]
  get? id := by
    rw [get?_push, get?_push, ← h.next_eq]
    split
    · exact .some he
    · exact h.get? id
  claims := h.claims

theorem Alike.modify (h : b.Alike b') (id : ElementId) {change : Element → Element}
    (hchange : ∀ {e e'}, Element.Alike e e' → Element.Alike (change e) (change e')) :
    (b.modify id change).Alike (b'.modify id change) where
  base := by rw [base_modify, base_modify, h.base]
  size := by
    unfold Batch.modify
    rw [← h.base]
    split
    · exact h.size
    · simp [h.size]
  get? j := by
    rw [get?_modify, get?_modify]
    have hj := h.get? j
    generalize b.get? j = x, b'.get? j = y at hj
    split
    · cases hj with
      | none => exact .none
      | some he => exact .some (hchange he)
    · exact hj
  claims d := by rw [claims_modify, claims_modify, h.claims]

end Batch

namespace BuildM

variable {α β γ : Type}

/-- Whether `y` does without a failure what `x` does, up to the order of siblings. -/
def Follows (x y : BuildM α) : Prop :=
  ∀ b b' a c, b.Alike b' → x b = .ok (a, c) → ∃ c', y b' = .ok (a, c') ∧ c.Alike c'

theorem Follows.pure (a : α) : Follows (pure a) (pure a) := by
  intro b b' a' c halike h
  obtain ⟨rfl, rfl⟩ := pure_eq_ok_iff.mp h
  exact ⟨b', rfl, halike⟩

theorem Follows.throw (e : ResolveError) (y : BuildM α) : Follows (throw e) y :=
  fun _ _ _ _ _ h => absurd h throw_ne_ok

theorem Follows.bind {x y : BuildM α} {k l : α → BuildM β} (hx : Follows x y)
    (hk : ∀ a, Follows (k a) (l a)) : Follows (x >>= k) (y >>= l) := by
  intro b b' p c halike h
  obtain ⟨a, b₁, hx', hk'⟩ := bind_eq_ok_iff.mp h
  obtain ⟨b₁', hy, halike₁⟩ := hx _ _ _ _ halike hx'
  obtain ⟨c', hl, halike'⟩ := hk a _ _ _ _ halike₁ hk'
  exact ⟨c', bind_eq_ok_iff.mpr ⟨a, b₁', hy, hl⟩, halike'⟩

/-- What follows may go on with another result. -/
theorem Follows.lift_bind {x : Except ResolveError α} {y : Except ResolveError β}
    {k : α → BuildM γ} {l : β → BuildM γ}
    (h : ∀ a, x = .ok a → ∃ a', y = .ok a' ∧ Follows (k a) (l a')) :
    Follows ((liftM x : BuildM α) >>= k) ((liftM y : BuildM β) >>= l) := by
  intro b b' p c halike hrun
  obtain ⟨a, b₁, hlift, hk⟩ := bind_eq_ok_iff.mp hrun
  obtain ⟨hx, hb⟩ := lift_eq_ok_iff.mp hlift
  obtain ⟨a', hy, hfollows⟩ := h a hx
  subst hb
  obtain ⟨c', hl, halike'⟩ := hfollows _ _ _ _ halike hk
  exact ⟨c', bind_eq_ok_iff.mpr ⟨a', b', lift_eq_ok_iff.mpr ⟨hy, rfl⟩, hl⟩, halike'⟩

theorem Follows.lift {x y : Except ResolveError α} (h : ∀ a, x = .ok a → y = .ok a) :
    Follows (liftM x : BuildM α) (liftM y) := by
  intro b b' a c halike hrun
  obtain ⟨hx, rfl⟩ := lift_eq_ok_iff.mp hrun
  exact ⟨b', lift_eq_ok_iff.mpr ⟨h a hx, rfl⟩, halike⟩

/-- Steps for things that correspond one by one. -/
theorem Follows.mapM_forall₂ {R : α → β → Prop} {f : α → BuildM γ} {g : β → BuildM γ}
    {l : List α} {k : List β} (h : ∀ a b, R a b → Follows (f a) (g b)) (hl : List.Forall₂ R l k) :
    Follows (l.mapM f) (k.mapM g) := by
  induction hl with
  | nil => exact .pure _
  | cons ha _ ih =>
    rw [List.mapM_cons, List.mapM_cons]
    exact (h _ _ ha).bind fun b => ih.bind fun bs => .pure _

theorem Follows.mapM {f g : α → BuildM β} (h : ∀ a, Follows (f a) (g a)) (l : List α) :
    Follows (l.mapM f) (l.mapM g) :=
  .mapM_forall₂ (R := Eq) (by rintro a _ rfl; exact h a) (List.forall₂_refl l)

theorem Follows.push {e e' : Element} (h : e.Alike e') : Follows (push e) (push e') := by
  intro b b' id c halike hrun
  obtain ⟨rfl, rfl⟩ : b.next = id ∧ b.push e = c := by simpa [BuildM.push] using hrun
  exact ⟨b'.push e', by rw [BuildM.push, halike.next_eq], halike.push h⟩

theorem Follows.modify (id : ElementId) {change : Element → Element}
    (hchange : ∀ {e e'}, Element.Alike e e' → Element.Alike (change e) (change e')) :
    Follows (modify id change) (modify id change) := by
  intro b b' u c halike hrun
  obtain rfl : b.modify id change = c := by simpa [BuildM.modify] using hrun
  exact ⟨b'.modify id change, rfl, halike.modify id hchange⟩

/-- Claims can be made in any order. -/
theorem Follows.claimAll (host host' : Host) (id : ElementId) {ds ds' : List DeclId}
    (h : ds.Perm ds') : Follows (claimAll host id ds) (claimAll host' id ds') := by
  intro b b' u c halike hrun
  obtain ⟨hbase, helements, hclaims, hfree⟩ := claimAll_eq_ok hrun
  cases hrun' : BuildM.claimAll host' id ds' b' with
  | error e =>
    obtain ⟨d, hd, ⟨j, hj, hne⟩, -⟩ := claimAll_eq_error hrun'
    rw [← halike.claims] at hj
    exact absurd (hfree d (h.mem_iff.mpr hd) j hj) hne
  | ok p =>
    obtain ⟨u', c'⟩ := p
    obtain ⟨hbase', helements', hclaims', -⟩ := claimAll_eq_ok hrun'
    refine ⟨c', rfl, ?_, ?_, fun j => ?_, fun d => ?_⟩
    · rw [hbase, hbase', halike.base]
    · rw [helements, helements', halike.size]
    · simpa only [Batch.get?, hbase, hbase', helements, helements'] using halike.get? j
    · simp only [hclaims, hclaims', h.mem_iff, halike.claims]

theorem Follows.claim (host host' : Host) (id : ElementId) (d : DeclId) :
    Follows (claim host id d) (claim host' id d) := by
  have h := Follows.claimAll host host' id (.refl [d])
  have hone (host : Host) : BuildM.claimAll host id [d] = BuildM.claim host id d := by
    simp [BuildM.claimAll]
  rwa [hone, hone] at h

theorem Follows.add (host host' : Host) {e e' : Element} (h : e.Alike e') :
    Follows (add host e) (add host' e') :=
  (Follows.push h).bind fun id => (Follows.claimAll host host' id h.hostForms_perm).bind
    fun _ => .pure id

end BuildM

end Correspondence
