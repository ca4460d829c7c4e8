import Correspondence.Proofs.Batch

/-!
# Staging elements

The invariant of a batch between the making of two elements, and the lists of elements that are made
one after the other.
-/

namespace Correspondence

/-- Whether a class or file may claim a declaration that the given one encloses. -/
def Host.MayClaim (host : Host) (owner d : DeclId) : Prop :=
  host.kind d ∈ [.method, .constructor, .field, .enumConstant, .parameter] ∨
    host.kind d = .typeParameter ∧ ((host.kind owner).isType ∨ host.kind owner = .method)

namespace Batch

variable {host : Host} {container : DeclId} {b b' : Batch}

/-- Whether a declaration is the class or file itself, or something in what is claimed already. -/
def Attached (b : Batch) (host : Host) (container d : DeclId) : Prop :=
  d = container ∨ ∃ owner, host.enclosing d = some owner ∧
    (∃ id, b.claims.find? owner = some id) ∧ host.MayClaim owner d

theorem Attached.mono {d : DeclId} (h : b.Attached host container d) (hb : b.Extends b') :
    b'.Attached host container d := by
  rcases h with h | ⟨owner, howner, ⟨id, hid⟩, hmay⟩
  · exact .inl h
  · exact .inr ⟨owner, howner, ⟨id, hb.claim hid⟩, hmay⟩

/-- What holds of a batch between the making of two elements. -/
structure Sound (host : Host) (container : DeclId) (b : Batch) : Prop where
  /-- A declaration is claimed by the element that stands for it. -/
  claimed {d : DeclId} {id : ElementId} :
    b.claims.find? d = some id ↔ ∃ e, b.get? id = some e ∧ d ∈ e.hostForms
  /-- Elements refer to elements of the batch. -/
  closed {id j : ElementId} {e : Element} :
    b.get? id = some e → j ∈ e.references → ∃ e', b.get? j = some e'
  attached {d : DeclId} {id : ElementId} : b.claims.find? d = some id → b.Attached host container d
  /-- Elements are made after what they belong to. -/
  older {id owner : ElementId} {e : Element} :
    b.get? id = some e → e.owner? = some owner → owner.index < id.index

theorem sound_begin (base : Nat) : ({ base } : Batch).Sound host container := by
  have hget (id : ElementId) : ({ base } : Batch).get? id = none := by simp [get?]
  have hfind (d : DeclId) : ({ base } : Batch).claims.find? d = none := Lookup.find?_empty d
  constructor <;> simp [hget, hfind]

theorem Sound.added {e : Element} {id : ElementId} (hb : b.Sound host container)
    (h : BuildM.Added b e id b') (hrefs : ∀ j ∈ e.references, ∃ e', b.get? j = some e')
    (hforms : ∀ d ∈ e.hostForms, b.Attached host container d) : b'.Sound host container := by
  have hext := h.extends
  have hfresh : b.get? id = none := h.id_eq ▸ get?_next b
  constructor
  · intro d j
    rw [h.claims, h.get?]
    by_cases hd : d ∈ e.hostForms
    · rw [if_pos hd, Option.some.injEq]
      constructor
      · rintro rfl
        exact ⟨e, if_pos rfl, hd⟩
      · rintro ⟨e', he', hd'⟩
        by_cases hj : j = id
        · exact hj.symm
        · rw [if_neg hj] at he'
          exact (h.free hd (hb.claimed.mpr ⟨e', he', hd'⟩)).symm
    · rw [if_neg hd, hb.claimed]
      by_cases hj : j = id
      · subst hj
        simp [hfresh, hd]
      · simp [hj]
  · intro i j e' he' hj
    rw [h.get?] at he'
    have hold : ∃ e', b.get? j = some e' := by
      split at he'
      · exact hrefs j (Option.some.inj he' ▸ hj)
      · exact hb.closed he' hj
    obtain ⟨e', he'⟩ := hold
    exact ⟨e', hext.element he'⟩
  · intro d j hj
    rw [h.claims] at hj
    have hold : b.Attached host container d := by
      split at hj
      · exact hforms d (by assumption)
      · exact hb.attached hj
    exact hold.mono hext
  · intro j owner e' he' howner
    rw [h.get?] at he'
    split at he'
    · rename_i hj
      obtain rfl := Option.some.inj he'
      obtain ⟨o, ho⟩ := hrefs owner (Element.mem_references_of_owner? howner)
      exact hj ▸ h.lt ho
    · exact hb.older he' howner

theorem Sound.modify {id : ElementId} {change : Element → Element} (hb : b.Sound host container)
    (hforms : ∀ e, (change e).hostForms = e.hostForms)
    (howner : ∀ e, (change e).owner? = e.owner?)
    (hrefs : ∀ e, b.get? id = some e → ∀ j ∈ (change e).references, ∃ e', b.get? j = some e') :
    (b.modify id change).Sound host container := by
  have hget (j : ElementId) : (∃ e', (b.modify id change).get? j = some e') ↔
      ∃ e', b.get? j = some e' := by
    rw [get?_modify]
    split
    · cases b.get? j <;> simp
    · rfl
  constructor
  · intro d j
    rw [claims_modify, hb.claimed, get?_modify]
    split
    · cases b.get? j <;> simp [hforms]
    · rfl
  · intro i j e he hj
    rw [hget]
    rw [get?_modify] at he
    split at he
    · obtain ⟨e₀, he₀, rfl⟩ := Option.map_eq_some_iff.mp he
      rename_i hi
      exact hrefs e₀ (hi ▸ he₀) j hj
    · exact hb.closed he hj
  · intro d j hj
    rw [claims_modify] at hj
    rcases hb.attached hj with h | ⟨owner, howner, hid, hmay⟩
    · exact .inl h
    · exact .inr ⟨owner, howner, by simpa only [claims_modify] using hid, hmay⟩
  · intro j owner e he ho
    rw [get?_modify] at he
    split at he
    · obtain ⟨e₀, he₀, rfl⟩ := Option.map_eq_some_iff.mp he
      exact hb.older he₀ (howner e₀ ▸ ho)
    · exact hb.older he ho

/-- An element that stands for something is in one place only. -/
theorem LinesUp.mem_of_get? {ids : List ElementId} {es : List Element} {j : ElementId} {e : Element}
    {d : DeclId} (h : b.LinesUp ids es) (hb : b.Sound host container) (he : e ∈ es)
    (hd : d ∈ e.hostForms) (hj : b.get? j = some e) : j ∈ ids := by
  obtain ⟨id, hid, hget⟩ := h.exists_of_mem_right he
  have hclaim := hb.claimed.mpr ⟨e, hget, hd⟩
  rw [hb.claimed.mpr ⟨e, hj, hd⟩] at hclaim
  exact Option.some.inj hclaim ▸ hid

end Batch

namespace BuildM

variable {α : Type} {host : Host} {container : DeclId} {b b' : Batch}

/-- A list of steps each of which makes one element. -/
theorem adds_ok {f : α → BuildM ElementId} {R : α → Element → Prop} {l : List α}
    (hf : ∀ x ∈ l, ∀ b id b', f x b = .ok (id, b') → ∃ e, R x e ∧ Added b e id b')
    (hrefs : ∀ x ∈ l, ∀ e, R x e → ∀ j ∈ e.references, ∃ e', b.get? j = some e')
    (hforms : ∀ x ∈ l, ∀ e, R x e → ∀ d ∈ e.hostForms, b.Attached host container d)
    (hb : b.Sound host container) {ids : List ElementId} (h : l.mapM f b = .ok (ids, b')) :
    b'.Sound host container ∧ b.Makes b' ids ∧
      List.Forall₂ (fun x id => ∃ e, R x e ∧ b'.get? id = some e) l ids ∧
      ∀ j e, b'.get? j = some e → b.get? j = some e ∨ ∃ x ∈ l, R x e := by
  obtain ⟨⟨hsound, -, hnew⟩, hmakes, hall⟩ := mapM_ok (g := fun id => id)
    (I := fun b₁ => b₁.Sound host container ∧ b.Extends b₁ ∧
      ∀ j e, b₁.get? j = some e → b.get? j = some e ∨ ∃ x ∈ l, R x e)
    (Q := fun x id b₁ => ∃ e, R x e ∧ b₁.get? id = some e)
    (fun x hx b₁ id b₂ hI hstep => by
      obtain ⟨hsound, hext, hnew⟩ := hI
      obtain ⟨e, hR, hadd⟩ := hf x hx b₁ id b₂ hstep
      have hext' := hadd.extends
      have hsound' := hsound.added hadd
        (fun j hj => (hrefs x hx e hR j hj).imp fun _ => hext.element)
        (fun d hd => (hforms x hx e hR d hd).mono hext)
      refine ⟨⟨hsound', hext.trans hext', fun j e' he' => ?_⟩, hadd.makes, e, hR, ?_⟩
      · rw [hadd.get?] at he'
        split at he'
        · exact .inr ⟨x, hx, Option.some.inj he' ▸ hR⟩
        · exact hnew j e' he'
      · rw [hadd.get?, if_pos rfl])
    (fun x id b₁ b₂ hext' hQ => by
      obtain ⟨e, hR, he⟩ := hQ
      exact ⟨e, hR, hext'.element he⟩)
    ⟨hb, .refl b, fun _ _ => .inl⟩ h
  rw [List.map_id'] at hmakes
  exact ⟨hsound, hmakes, hall, hnew⟩

end BuildM

end Correspondence
