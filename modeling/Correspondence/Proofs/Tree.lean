import Correspondence.Decl.Host

/-!
# Trees made by adding declarations

Each list of such a tree holds declarations that the owner of the list encloses, of the kinds that
belong there, in the order of their creation.
-/

namespace Correspondence

/-- Whether declarations of two kinds stand in the same list of their owner. -/
def DeclKind.sharesList (k l : DeclKind) : Bool :=
  decide (k = .parameter ↔ l = .parameter) && decide (k = .typeParameter ↔ l = .typeParameter)

/-- The list in which a declaration of the given kind stands. -/
def Decl.listed (d : Decl) : DeclKind → List DeclId
  | .parameter => d.parameters
  | .typeParameter => d.typeParameters
  | _ => d.enclosed

namespace Decl

theorem listed_link (d : Decl) (kind : DeclKind) (child : DeclId) (k : DeclKind) :
    (d.link kind child).listed k =
      if kind.sharesList k then d.listed k ++ [child] else d.listed k := by
  cases kind <;> cases k <;> rfl

@[simp] theorem enclosing_link (d : Decl) (kind : DeclKind) (child : DeclId) :
    (d.link kind child).enclosing = d.enclosing := by
  unfold link
  split <;> rfl

@[simp] theorem kind_link (d : Decl) (kind : DeclKind) (child : DeclId) :
    (d.link kind child).kind = d.kind := by
  unfold link
  split <;> rfl

end Decl

namespace DeclTree

/-- The trees that adding declarations and attaching metadata lead to. -/
inductive Built : DeclTree → Prop
  | empty : Built {}
  | add {t : DeclTree} (enclosing : Option DeclId) (kind : DeclKind) (name : String)
      (type : Option JvmType) (built : Built t) : Built (t.add enclosing kind name type)
  | attach {t : DeclTree} (id : DeclId) (metadata : Metadata) (built : Built t) :
      Built (t.attach id metadata)

theorem lt_size_of_get? {t : DeclTree} {id : DeclId} {d : Decl} (h : t.get? id = some d) :
    id.index < t.size :=
  (Array.getElem?_eq_some_iff.mp h).1

theorem get?_add (t : DeclTree) (enclosing : Option DeclId) (kind : DeclKind) (name : String)
    (type : Option JvmType) (id : DeclId) :
    (t.add enclosing kind name type).get? id =
      (if id = t.next then some { kind, name, enclosing, type } else t.get? id).map
        fun d => if enclosing = some id then d.link kind t.next else d := by
  have hid : id = t.next ↔ id.index = t.decls.size := by
    obtain ⟨i⟩ := id
    simp [next, size]
  cases enclosing with
  | none => simp only [add, get?, Array.getElem?_push, hid]; split <;> simp
  | some parent =>
    have hp : some parent = some id ↔ parent.index = id.index := by
      obtain ⟨i⟩ := id
      obtain ⟨j⟩ := parent
      simp
    simp only [add, get?, Array.getElem?_modify, Array.getElem?_push, hid, hp]
    split <;> simp

theorem get?_attach (t : DeclTree) (target : DeclId) (metadata : Metadata) (id : DeclId) :
    (t.attach target metadata).get? id =
      (t.get? id).map fun d => if target = id then { d with metadata := some metadata } else d := by
  have hid : target = id ↔ target.index = id.index := by
    obtain ⟨i⟩ := id
    obtain ⟨j⟩ := target
    simp
  simp only [attach, attachMetadata, get?, Array.getElem?_modify, hid]
  split <;> simp

/-- What the lists of a tree hold. -/
structure Linked (t : DeclTree) : Prop where
  /-- A listed declaration knows the owner of the list, and its kind belongs there. -/
  child {owner : DeclId} {d : Decl} {kind : DeclKind} {x : DeclId} :
    t.get? owner = some d → x ∈ d.listed kind →
      ∃ e, t.get? x = some e ∧ e.enclosing = some owner ∧ e.kind.sharesList kind
  /-- Declarations stand in the order of their creation. -/
  ascending {owner : DeclId} {d : Decl} (kind : DeclKind) :
    t.get? owner = some d → (d.listed kind).Pairwise (·.index < ·.index)

section Add

variable {t : DeclTree} (enclosing : Option DeclId) (kind : DeclKind) (name : String)
  (type : Option JvmType)

/-- A declaration of the old tree is one of the new tree, with what encloses it. -/
private theorem exists_get?_add {x : DeclId} {e : Decl} (hx : t.get? x = some e) :
    ∃ e', (t.add enclosing kind name type).get? x = some e' ∧ e'.enclosing = e.enclosing ∧
      e'.kind = e.kind := by
  have hne : x ≠ t.next := by
    intro he
    have hlt := lt_size_of_get? hx
    simp [he, next] at hlt
  rw [get?_add, if_neg hne, hx]
  refine ⟨_, rfl, ?_⟩
  split <;> simp

private theorem exists_get?_add_next :
    ∃ e', (t.add enclosing kind name type).get? t.next = some e' ∧ e'.enclosing = enclosing ∧
      e'.kind = kind := by
  rw [get?_add, if_pos rfl]
  refine ⟨_, rfl, ?_⟩
  split <;> simp

/-- A list of the new tree is an old one, with the new declaration at the end where it belongs. -/
private theorem listed_of_get?_add {owner : DeclId} {d : Decl}
    (hd : (t.add enclosing kind name type).get? owner = some d) (k : DeclKind) :
    ∃ old : List DeclId, (old = [] ∨ ∃ d₀, t.get? owner = some d₀ ∧ old = d₀.listed k) ∧
      (d.listed k = old ∨
        d.listed k = old ++ [t.next] ∧ enclosing = some owner ∧ kind.sharesList k) := by
  rw [get?_add] at hd
  obtain ⟨d₀, hd₀, rfl⟩ := Option.map_eq_some_iff.mp hd
  refine ⟨d₀.listed k, ?_, ?_⟩
  · split at hd₀
    · cases hd₀
      left
      cases k <;> rfl
    · exact .inr ⟨d₀, hd₀, rfl⟩
  · split
    · rename_i he
      rw [Decl.listed_link]
      split
      · exact .inr ⟨rfl, he, by assumption⟩
      · exact .inl rfl
    · exact .inl rfl

private theorem child_add (h : t.Linked) {owner x : DeclId} {d : Decl} {k : DeclKind}
    (hd : (t.add enclosing kind name type).get? owner = some d) (hx : x ∈ d.listed k) :
    ∃ e, (t.add enclosing kind name type).get? x = some e ∧ e.enclosing = some owner ∧
      e.kind.sharesList k := by
  obtain ⟨old, hold, hnew⟩ := listed_of_get?_add enclosing kind name type hd k
  have of_old (hx : x ∈ old) : ∃ e, (t.add enclosing kind name type).get? x = some e ∧
      e.enclosing = some owner ∧ e.kind.sharesList k := by
    rcases hold with rfl | ⟨d₀, hd₀, rfl⟩
    · simp at hx
    · obtain ⟨e, he, hown, hk⟩ := h.child hd₀ hx
      obtain ⟨e', he', hown', hk'⟩ := exists_get?_add enclosing kind name type he
      exact ⟨e', he', hown' ▸ hown, hk' ▸ hk⟩
  rcases hnew with hnew | ⟨hnew, howner, hk⟩
  · exact of_old (hnew ▸ hx)
  · rw [hnew, List.mem_append, List.mem_singleton] at hx
    rcases hx with hx | rfl
    · exact of_old hx
    · obtain ⟨e', he', hown', hk'⟩ := exists_get?_add_next (t := t) enclosing kind name type
      exact ⟨e', he', hown'.trans howner, hk' ▸ hk⟩

private theorem ascending_add (h : t.Linked) {owner : DeclId} {d : Decl} (k : DeclKind)
    (hd : (t.add enclosing kind name type).get? owner = some d) :
    (d.listed k).Pairwise (·.index < ·.index) := by
  obtain ⟨old, hold, hnew⟩ := listed_of_get?_add enclosing kind name type hd k
  have hasc : old.Pairwise (·.index < ·.index) := by
    rcases hold with rfl | ⟨d₀, hd₀, rfl⟩
    · exact .nil
    · exact h.ascending k hd₀
  rcases hnew with hnew | ⟨hnew, -, -⟩
  · exact hnew ▸ hasc
  · rw [hnew, List.pairwise_append]
    refine ⟨hasc, List.pairwise_singleton _ _, ?_⟩
    intro x hx y hy
    obtain rfl := List.mem_singleton.mp hy
    rcases hold with rfl | ⟨d₀, hd₀, rfl⟩
    · simp at hx
    · obtain ⟨e, he, -⟩ := h.child hd₀ hx
      exact lt_size_of_get? he

theorem Linked.add (h : t.Linked) : (t.add enclosing kind name type).Linked where
  child := child_add enclosing kind name type h
  ascending := ascending_add enclosing kind name type h

end Add

theorem Linked.attach {t : DeclTree} (h : t.Linked) (id : DeclId) (metadata : Metadata) :
    (t.attach id metadata).Linked := by
  have same {x : DeclId} {e : Decl} (hx : (t.attach id metadata).get? x = some e) :
      ∃ e₀, t.get? x = some e₀ ∧ ∀ k, e.listed k = e₀.listed k := by
    rw [get?_attach] at hx
    obtain ⟨e₀, he₀, rfl⟩ := Option.map_eq_some_iff.mp hx
    refine ⟨e₀, he₀, fun k => ?_⟩
    split <;> cases k <;> rfl
  constructor
  · intro owner d k x hd hx
    obtain ⟨d₀, hd₀, hl⟩ := same hd
    obtain ⟨e, he, hown, hk⟩ := h.child hd₀ (hl k ▸ hx)
    rw [get?_attach, he]
    refine ⟨_, rfl, ?_⟩
    split <;> exact ⟨hown, hk⟩
  · intro owner d k hd
    obtain ⟨d₀, hd₀, hl⟩ := same hd
    exact hl k ▸ h.ascending k hd₀

theorem Built.linked {t : DeclTree} (h : t.Built) : t.Linked := by
  induction h with
  | empty => constructor <;> intros <;> simp_all [get?]
  | add enclosing kind name type _ ih => exact ih.add enclosing kind name type
  | attach id metadata _ ih => exact ih.attach id metadata

end DeclTree

/-- What the lists of a host say about the declarations in them. -/
structure Host.Linked (host : Host) : Prop where
  /-- Nothing encloses a declaration that is not known. -/
  known {x owner : DeclId} : host.enclosing x = some owner → x.index < host.size
  member {x owner : DeclId} : x ∈ host.enclosed owner →
    host.enclosing x = some owner ∧ host.kind x ≠ .parameter ∧ host.kind x ≠ .typeParameter
  parameter {x owner : DeclId} : x ∈ host.parameters owner →
    host.enclosing x = some owner ∧ host.kind x = .parameter
  typeParameter {x owner : DeclId} : x ∈ host.typeParameters owner →
    host.enclosing x = some owner ∧ host.kind x = .typeParameter
  parameters_nodup (owner : DeclId) : (host.parameters owner).Nodup

theorem DeclTree.Linked.toHost {t : DeclTree} (h : t.Linked) : t.toHost.Linked := by
  have child {owner x : DeclId} (kind : DeclKind)
      (hx : x ∈ ((t.get? owner).map (·.listed kind)).getD []) :
      t.toHost.enclosing x = some owner ∧ (t.toHost.kind x).sharesList kind := by
    cases hd : t.get? owner with
    | none => simp [hd] at hx
    | some d =>
      simp only [hd, Option.map_some, Option.getD_some] at hx
      obtain ⟨e, he, hown, hk⟩ := h.child hd hx
      simp [DeclTree.toHost, he, hown, hk]
  constructor
  · intro x owner hx
    obtain ⟨d, hd, -⟩ := Option.bind_eq_some_iff.mp hx
    exact lt_size_of_get? hd
  · intro x owner hx
    obtain ⟨hown, hk⟩ := child .other hx
    refine ⟨hown, ?_, ?_⟩ <;> intro he <;> simp [he, DeclKind.sharesList] at hk
  · intro x owner hx
    obtain ⟨hown, hk⟩ := child .parameter hx
    simp only [DeclKind.sharesList, Bool.and_eq_true, decide_eq_true_eq, iff_true] at hk
    exact ⟨hown, hk.1⟩
  · intro x owner hx
    obtain ⟨hown, hk⟩ := child .typeParameter hx
    simp only [DeclKind.sharesList, Bool.and_eq_true, decide_eq_true_eq, iff_true] at hk
    exact ⟨hown, hk.2⟩
  · intro owner
    cases hd : t.get? owner with
    | none => simp [DeclTree.toHost, hd]
    | some d =>
      have hasc := h.ascending .parameter hd
      simp only [DeclTree.toHost, hd, Option.map_some, Option.getD_some]
      exact hasc.imp fun hlt he => Nat.ne_of_lt hlt (congrArg DeclId.index he)

end Correspondence
