import Correspondence.Proofs.References
import Mathlib.Data.List.Count
import Mathlib.Data.List.Nodup

/-!
# Lists of elements

An element lists what belongs to it, and what it lists knows it as its owner. Both sides agree in an
intact element: nothing is listed in the wrong place, and nothing is left out or listed twice.
-/

namespace Correspondence

/-- The lists that elements have. -/
inductive MemberList
  | constructors
  | functions
  | properties
  | typeParameters
  | enumEntries
  | parameters
deriving DecidableEq, Repr

namespace Element

/-- What an element lists. -/
def listed : Element → MemberList → List ElementId
  | .type e, .constructors => e.constructors
  | .type e, .functions => e.functions
  | .type e, .properties => e.properties
  | .type e, .typeParameters => e.typeParameters
  | .type e, .enumEntries => e.enumEntries
  | .fileFacade e, .functions => e.functions
  | .fileFacade e, .properties => e.properties
  | .function e, .parameters => e.parameters
  | .function e, .typeParameters => e.typeParameters
  | .constructor e, .parameters => e.parameters
  | _, _ => []

/-- The list of its owner in which an element stands. -/
def list? : Element → Option MemberList
  | .constructor _ => some .constructors
  | .function _ => some .functions
  | .property _ => some .properties
  | .typeParameter _ => some .typeParameters
  | .enumEntry _ => some .enumEntries
  | .parameter _ => some .parameters
  | _ => none

/-- The position in that list, where it is recorded. -/
def position? : Element → Option Nat
  | .parameter e => some e.position
  | .enumEntry e => some e.ordinal
  | _ => none

theorem listed_of_parameters? {e : Element} {ids : List ElementId} (h : e.parameters? = some ids) :
    e.listed .parameters = ids := by
  cases e <;> simp_all [parameters?, listed]

theorem listed_of_typeParameters? {e : Element} {ids : List ElementId}
    (h : e.typeParameters? = some ids) : e.listed .typeParameters = ids := by
  cases e <;> simp_all [typeParameters?, listed]

theorem mem_references_of_owner? {e : Element} {owner : ElementId} (h : e.owner? = some owner) :
    owner ∈ e.references := by
  cases e <;> simp_all [owner?, references]

section

variable (f : ElementId → ElementId) (e : Element)

@[simp] theorem owner?_mapIds : (e.mapIds f).owner? = e.owner?.map f := by
  cases e <;> rfl

@[simp] theorem listed_mapIds (l : MemberList) : (e.mapIds f).listed l = (e.listed l).map f := by
  cases e <;> cases l <;> rfl

@[simp] theorem list?_mapIds : (e.mapIds f).list? = e.list? := by
  cases e <;> rfl

@[simp] theorem position?_mapIds : (e.mapIds f).position? = e.position? := by
  cases e <;> rfl

end

/-- Whether an element stands in one of the lists of another one, at a position. -/
structure StandsAt (e : Element) (owner : ElementId) (l : MemberList) (position : Nat) : Prop where
  list : e.list? = some l
  owner : e.owner? = some owner
  position {n : Nat} : e.position? = some n → n = position

/-- Whether the lists of an element hold elements that stand there, each once. -/
structure Lists (get? : ElementId → Option Element) (id : ElementId) (e : Element) : Prop where
  nodup (l : MemberList) : (e.listed l).Nodup
  standsAt {l : MemberList} {i : Nat} {j : ElementId} : (e.listed l)[i]? = some j →
    ∃ e', get? j = some e' ∧ e'.StandsAt id l i

/-- Whether an element fits in with those that it refers to. -/
structure Intact (get? : ElementId → Option Element) (id : ElementId) (e : Element) : Prop where
  /-- It refers to elements that are there. -/
  references {j : ElementId} : j ∈ e.references → ∃ e', get? j = some e'
  older {owner : ElementId} : e.owner? = some owner → owner.index < id.index
  /-- What it lists stands there. -/
  listed {l : MemberList} {i : Nat} {j : ElementId} : (e.listed l)[i]? = some j →
    ∃ e', get? j = some e' ∧ e'.StandsAt id l i
  /-- It is listed once, in the right list of its owner and in no other one. -/
  once {l : MemberList} : e.list? = some l →
    ∃ owner o, e.owner? = some owner ∧ get? owner = some o ∧
      ∀ l', (o.listed l').count id = if l' = l then 1 else 0

variable {get? : ElementId → Option Element} {id : ElementId} {e : Element}

theorem lists_of_listed_eq_nil (h : ∀ l, e.listed l = []) : e.Lists get? id where
  nodup l := by
    rw [h]
    exact .nil
  standsAt hj := by simp [h] at hj

/-- What is listed anywhere is listed once, where it stands. -/
theorem Lists.count {owner : ElementId} {o : Element} (h : o.Lists get? owner)
    (he : get? id = some e) {l l₀ : MemberList} (hl : e.list? = some l)
    (hid : id ∈ o.listed l₀) (l' : MemberList) :
    (o.listed l').count id = if l' = l then 1 else 0 := by
  have stands {l' : MemberList} (hid : id ∈ o.listed l') : l' = l := by
    obtain ⟨i, hi⟩ := List.mem_iff_getElem?.mp hid
    obtain ⟨e', he', hstands⟩ := h.standsAt hi
    obtain rfl := Option.some.inj (he.symm.trans he')
    exact Option.some.inj (hstands.list.symm.trans hl)
  split
  · rename_i heq
    obtain rfl := stands hid
    rw [heq]
    exact List.count_eq_one_of_mem (h.nodup _) hid
  · rename_i hne
    exact List.count_eq_zero_of_not_mem fun hid' => hne (stands hid')

/-- An element that lists nothing and is listed nowhere. -/
theorem intact_of_unlisted (hlisted : ∀ l, e.listed l = []) (hlist : e.list? = none)
    (hrefs : ∀ j ∈ e.references, ∃ e', get? j = some e')
    (holder : ∀ owner, e.owner? = some owner → owner.index < id.index) : e.Intact get? id where
  references hj := hrefs _ hj
  older ho := holder _ ho
  listed h := by simp [hlisted] at h
  once h := by simp [hlist] at h

theorem StandsAt.mapIds {owner : ElementId} {l : MemberList} {i : Nat} (h : e.StandsAt owner l i)
    (f : ElementId → ElementId) : (e.mapIds f).StandsAt (f owner) l i where
  list := by rw [list?_mapIds, h.list]
  owner := by rw [owner?_mapIds, h.owner, Option.map_some]
  position hn := h.position (position?_mapIds f e ▸ hn)

/-- With new numbers in the same order an element fits in as before. -/
theorem Intact.mapIds {get?' : ElementId → Option Element} {f : ElementId → ElementId}
    (hf : Function.Injective f)
    (hlt : ∀ i j : ElementId, i.index < j.index → (f i).index < (f j).index)
    (hget : ∀ j e', get? j = some e' → get?' (f j) = some (e'.mapIds f))
    (h : e.Intact get? id) : (e.mapIds f).Intact get?' (f id) where
  references hj := by
    rw [references_mapIds] at hj
    obtain ⟨j, hmem, rfl⟩ := List.mem_map.mp hj
    obtain ⟨e', he'⟩ := h.references hmem
    exact ⟨_, hget j e' he'⟩
  older ho := by
    rw [owner?_mapIds] at ho
    obtain ⟨owner, howner, rfl⟩ := Option.map_eq_some_iff.mp ho
    exact hlt owner id (h.older howner)
  listed hj := by
    rw [listed_mapIds, List.getElem?_map] at hj
    obtain ⟨j, hmem, rfl⟩ := Option.map_eq_some_iff.mp hj
    obtain ⟨e', he', hstands⟩ := h.listed hmem
    exact ⟨_, hget j e' he', hstands.mapIds f⟩
  once hl := by
    rw [list?_mapIds] at hl
    obtain ⟨owner, o, howner, ho, hcount⟩ := h.once hl
    refine ⟨f owner, o.mapIds f, ?_, hget owner o ho, fun l' => ?_⟩
    · rw [owner?_mapIds, howner, Option.map_some]
    · rw [listed_mapIds, List.count_map_of_injective _ f hf, hcount]

end Element

end Correspondence
