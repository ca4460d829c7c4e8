import Correspondence.Proofs.Tree

/-!
# The lists of a tree

A step adds a declaration or attaches metadata. Whatever the steps are, and whatever numbers they name,
the lists of a tree hold the declarations that are enclosed by their owner, each of them in one list.
-/

namespace Correspondence

/-- The lists that every declaration has. -/
inductive DeclList
  | enclosed
  | parameters
  | typeParameters
deriving DecidableEq, Repr

/-- The list where declarations of a kind belong. -/
def DeclKind.list : DeclKind → DeclList
  | .parameter => .parameters
  | .typeParameter => .typeParameters
  | _ => .enclosed

/-- A list of a declaration. -/
def Host.listed (host : Host) (owner : DeclId) : DeclList → List DeclId
  | .enclosed => host.enclosed owner
  | .parameters => host.parameters owner
  | .typeParameters => host.typeParameters owner

theorem DeclKind.list_eq_parameters_iff {k : DeclKind} : k.list = .parameters ↔ k = .parameter := by
  cases k <;> decide

theorem DeclKind.list_eq_typeParameters_iff {k : DeclKind} :
    k.list = .typeParameters ↔ k = .typeParameter := by
  cases k <;> decide

theorem DeclKind.list_eq_enclosed_iff {k : DeclKind} :
    k.list = .enclosed ↔ k ≠ .parameter ∧ k ≠ .typeParameter := by
  cases k <;> decide

namespace Decl

/-- A list of a declaration. -/
def list (d : Decl) : DeclList → List DeclId
  | .enclosed => d.enclosed
  | .parameters => d.parameters
  | .typeParameters => d.typeParameters

theorem list_link (d : Decl) (kind : DeclKind) (child : DeclId) (l : DeclList) :
    (d.link kind child).list l = if kind.list = l then d.list l ++ [child] else d.list l := by
  cases kind <;> cases l <;> rfl

end Decl

namespace DeclTree

theorem listed_eq (t : DeclTree) (p : DeclId) (l : DeclList) :
    t.toHost.listed p l = ((t.get? p).map (·.list l)).getD [] := by
  cases l <;> rfl

theorem get?_next (t : DeclTree) : t.get? t.next = none := by
  simp [get?, next, size]

theorem mem_ids {t : DeclTree} {x : DeclId} : x ∈ t.ids ↔ x.index < t.size := by
  obtain ⟨i⟩ := x
  simp [ids]

section Order

variable {t : DeclTree} {before after : List DeclId} {x y : DeclId}

theorem pairwise_ids (t : DeclTree) : t.ids.Pairwise (·.index < ·.index) :=
  List.pairwise_map.mpr List.pairwise_lt_range

theorem lt_of_mem_after (hids : t.ids = before ++ x :: after) (hy : y ∈ after) : x.index < y.index := by
  have hpairwise := pairwise_ids t
  rw [hids, List.pairwise_append, List.pairwise_cons] at hpairwise
  exact hpairwise.2.1.1 y hy

/-- In the order of creation a declaration comes after those with smaller numbers. -/
theorem mem_before_iff (hids : t.ids = before ++ x :: after) : y ∈ before ↔ y.index < x.index := by
  constructor
  · intro hy
    have hpairwise := pairwise_ids t
    rw [hids, List.pairwise_append] at hpairwise
    exact hpairwise.2.2 y hy x List.mem_cons_self
  · intro hlt
    have hx : x.index < t.size := mem_ids.mp (by simp [hids])
    have hy : y ∈ t.ids := mem_ids.mpr (by omega)
    rw [hids, List.mem_append, List.mem_cons] at hy
    rcases hy with hy | rfl | hy
    · exact hy
    · omega
    · have hgt := lt_of_mem_after hids hy
      omega

end Order

section Add

variable (t : DeclTree) (enclosing : Option DeclId) (kind : DeclKind) (name : String)
  (type : Option JvmType)

theorem ids_add : (t.add enclosing kind name type).ids = t.ids ++ [t.next] := by
  simp [ids, List.range_succ, next]

theorem roots_add : (t.add enclosing kind name type).roots =
    t.roots ++ if enclosing.isNone then [t.next] else [] := by
  cases enclosing <;> simp [add]

theorem enclosing_add (x : DeclId) :
    (t.add enclosing kind name type).toHost.enclosing x =
      if x = t.next then enclosing else t.toHost.enclosing x := by
  simp only [toHost, get?_add]
  by_cases hx : x = t.next
  · simp only [hx, if_true, Option.map_some, Option.bind_some]
    split <;> simp
  · simp only [hx, if_false]
    cases t.get? x with
    | none => rfl
    | some d =>
      simp only [Option.map_some, Option.bind_some]
      split <;> simp

theorem kind_add (x : DeclId) :
    (t.add enclosing kind name type).toHost.kind x =
      if x = t.next then kind else t.toHost.kind x := by
  simp only [toHost, get?_add]
  by_cases hx : x = t.next
  · simp only [hx, if_true, Option.map_some, Option.getD_some]
    split <;> simp
  · simp only [hx, if_false]
    cases t.get? x with
    | none => rfl
    | some d =>
      simp only [Option.map_some, Option.getD_some]
      split <;> simp

/-- The new declaration comes last in the list where it belongs, if the tree has given the number of what
encloses it or gives it now. All other lists stay as they are. -/
theorem listed_add (p : DeclId) (l : DeclList) :
    (t.add enclosing kind name type).toHost.listed p l =
      t.toHost.listed p l ++
        if enclosing = some p ∧ p.index ≤ t.size ∧ kind.list = l then [t.next] else [] := by
  simp only [listed_eq, get?_add]
  by_cases hp : p = t.next
  · subst hp
    have hle : t.next.index ≤ t.size := Nat.le_refl _
    have hnil : ({ kind, name, enclosing, type : Decl }).list l = [] := by cases l <;> rfl
    by_cases he : enclosing = some t.next
    · simp [he, hle, Decl.list_link, get?_next]
      cases l <;> simp [Decl.list]
    · simp [he, get?_next, hnil]
  · have hlt : p.index ≤ t.size ↔ p.index < t.size := by
      have hne : p.index ≠ t.size := fun h => hp (by cases p; simp_all [next])
      omega
    simp only [hp, if_false]
    cases hd : t.get? p with
    | none =>
      have hnot : ¬ p.index < t.size := by simpa [get?, size] using hd
      simp [hlt, hnot]
    | some d =>
      have hmem : p.index < t.size := lt_size_of_get? hd
      by_cases he : enclosing = some p
      · by_cases hl : kind.list = l <;> simp [he, hl, hlt, hmem, Decl.list_link]
      · simp [he]

end Add

section Attach

variable (t : DeclTree) (id : DeclId) (metadata : Metadata)

theorem ids_attach : (t.attach id metadata).ids = t.ids := by
  simp [ids]

theorem enclosing_attach (x : DeclId) :
    (t.attach id metadata).toHost.enclosing x = t.toHost.enclosing x := by
  simp only [toHost, get?_attach]
  cases t.get? x with
  | none => rfl
  | some d =>
    simp only [Option.map_some, Option.bind_some]
    split <;> rfl

theorem kind_attach (x : DeclId) :
    (t.attach id metadata).toHost.kind x = t.toHost.kind x := by
  simp only [toHost, get?_attach]
  cases t.get? x with
  | none => rfl
  | some d =>
    simp only [Option.map_some, Option.getD_some]
    split <;> rfl

theorem listed_attach (p : DeclId) (l : DeclList) :
    (t.attach id metadata).toHost.listed p l = t.toHost.listed p l := by
  simp only [listed_eq, get?_attach]
  cases t.get? p with
  | none => rfl
  | some d =>
    simp only [Option.map_some, Option.getD_some]
    split <;> cases l <;> rfl

theorem attach_of_not_mem (h : id ∉ t.ids) : t.attach id metadata = t := by
  have hsize : t.decls.size ≤ id.index := Nat.le_of_not_lt fun hlt => h (mem_ids.mpr hlt)
  have hsame : t.decls.modify id.index (fun d => { d with metadata := some metadata }) = t.decls := by
    apply Array.ext
    · simp
    · intro i hi hi'
      rw [Array.getElem_modify, if_neg (by omega)]
  rw [attach, attachMetadata, hsame]

end Attach

/-- A step on a tree. -/
inductive Step
  | add (enclosing : Option DeclId) (kind : DeclKind) (name : String) (type : Option JvmType)
  | attach (id : DeclId) (metadata : Metadata)

/-- The answer to a step: the number of the new declaration, or whether there is a declaration that the
metadata is attached to. -/
inductive Reply
  | added (id : DeclId)
  | attached (known : Bool)
deriving DecidableEq, Repr

/-- Takes a step. -/
def step (t : DeclTree) : Step → Reply × DeclTree
  | .add enclosing kind name type => (.added t.next, t.add enclosing kind name type)
  | .attach id metadata =>
    let (known, t') := t.attachMetadata id metadata
    (.attached known, t')

theorem step_attach (t : DeclTree) (id : DeclId) (metadata : Metadata) :
    (t.step (.attach id metadata)).2 = t.attach id metadata :=
  rfl

/-- The tree after steps, one after the other. -/
def run (t : DeclTree) (steps : List Step) : DeclTree :=
  steps.foldl (fun t s => (t.step s).2) t

theorem Built.step {t : DeclTree} (h : t.Built) (s : Step) : (t.step s).2.Built := by
  cases s with
  | add enclosing kind name type => exact h.add enclosing kind name type
  | attach id metadata => exact h.attach id metadata

theorem Built.run {t : DeclTree} (h : t.Built) (steps : List Step) : (t.run steps).Built := by
  induction steps generalizing t with
  | nil => exact h
  | cons s steps ih => exact ih (h.step s)

/-- What is known of a declaration stays so, whatever the steps are. -/
theorem run_of_mem_ids {t : DeclTree} {x : DeclId} (h : x ∈ t.ids) (steps : List Step) :
    x ∈ (t.run steps).ids ∧ (t.run steps).toHost.enclosing x = t.toHost.enclosing x ∧
      (t.run steps).toHost.kind x = t.toHost.kind x := by
  induction steps generalizing t with
  | nil => exact ⟨h, rfl, rfl⟩
  | cons s steps ih =>
    have hne : x ≠ t.next := by
      rintro rfl
      exact Nat.lt_irrefl _ (mem_ids.mp h)
    cases s with
    | add enclosing kind name type =>
      have hx : x ∈ (t.add enclosing kind name type).ids := by simp [ids_add, h]
      have hrest := ih hx
      rw [enclosing_add, kind_add, if_neg hne, if_neg hne] at hrest
      exact hrest
    | attach id metadata =>
      have hx : x ∈ (t.attach id metadata).ids := by rwa [ids_attach]
      have hrest := ih hx
      rw [enclosing_attach, kind_attach] at hrest
      exact hrest

variable {t : DeclTree}

theorem Linked.of_mem_listed (h : t.Linked) {p x : DeclId} {l : DeclList}
    (hx : x ∈ t.toHost.listed p l) :
    t.toHost.enclosing x = some p ∧ (t.toHost.kind x).list = l := by
  cases l with
  | enclosed =>
    rw [DeclKind.list_eq_enclosed_iff]
    exact h.toHost.member hx
  | parameters =>
    rw [DeclKind.list_eq_parameters_iff]
    exact h.toHost.parameter hx
  | typeParameters =>
    rw [DeclKind.list_eq_typeParameters_iff]
    exact h.toHost.typeParameter hx

theorem Linked.listed_ascending (h : t.Linked) (p : DeclId) (l : DeclList) :
    (t.toHost.listed p l).Pairwise (·.index < ·.index) := by
  rw [listed_eq]
  cases hd : t.get? p with
  | none => exact .nil
  | some d =>
    cases l with
    | enclosed => exact h.ascending .other hd
    | parameters => exact h.ascending .parameter hd
    | typeParameters => exact h.ascending .typeParameter hd

/-- A declaration stands in a list of what encloses it, unless it was added first. -/
theorem Built.mem_listed (h : t.Built) {p x : DeclId} (henclosing : t.toHost.enclosing x = some p)
    (hle : p.index ≤ x.index) : x ∈ t.toHost.listed p (t.toHost.kind x).list := by
  induction h with
  | empty => simp [toHost, get?] at henclosing
  | @add t enclosing kind name type _ ih =>
    rw [enclosing_add] at henclosing
    rw [kind_add, listed_add, List.mem_append]
    by_cases hx : x = t.next
    · subst hx
      rw [if_pos rfl] at henclosing
      right
      have hsize : p.index ≤ t.size := hle
      simp [henclosing, hsize]
    · rw [if_neg hx] at henclosing
      left
      rw [if_neg hx]
      exact ih henclosing
  | attach id metadata _ ih =>
    rw [enclosing_attach] at henclosing
    rw [kind_attach, listed_attach]
    exact ih henclosing

/-- The roots are the declarations that nothing encloses, in order. -/
theorem Built.roots_eq (h : t.Built) :
    t.roots = t.ids.filter fun x => (t.toHost.enclosing x).isNone := by
  induction h with
  | empty => rfl
  | @add t enclosing kind name type _ ih =>
    have hold : t.ids.filter (fun x => ((t.add enclosing kind name type).toHost.enclosing x).isNone) =
        t.ids.filter fun x => (t.toHost.enclosing x).isNone := by
      apply List.filter_congr
      intro x hx
      have hne : x ≠ t.next := by
        rintro rfl
        exact Nat.lt_irrefl _ (mem_ids.mp hx)
      rw [enclosing_add, if_neg hne]
    rw [ids_add, List.filter_append, hold, ← ih]
    cases enclosing <;> simp [roots_add, enclosing_add]
  | attach id metadata _ ih =>
    simp only [ids_attach, enclosing_attach]
    exact ih

/-- A declaration that is added below a known one stands in the list of that one where it belongs, and in no
other list. -/
theorem mem_listed_run_iff {before after : List Step} {enclosing : DeclId} {kind : DeclKind}
    {name : String} {type : Option JvmType} (hknown : enclosing ∈ (run {} before).ids)
    (p : DeclId) (l : DeclList) :
    (run {} before).next ∈
        (run {} (before ++ .add (some enclosing) kind name type :: after)).toHost.listed p l ↔
      p = enclosing ∧ l = kind.list := by
  let x := (run {} before).next
  let added := (run {} before).add (some enclosing) kind name type
  have hrun : run {} (before ++ .add (some enclosing) kind name type :: after) = added.run after := by
    simp [run, step, added]
  have hbuilt : (added.run after).Built := ((Built.empty.run before).add _ _ _ _).run after
  have hx : x ∈ added.ids := by simp [added, ids_add, x]
  obtain ⟨-, henclosing, hkind⟩ := run_of_mem_ids hx after
  rw [enclosing_add, if_pos rfl] at henclosing
  rw [kind_add, if_pos rfl] at hkind
  rw [hrun]
  constructor
  · intro hmem
    have hbelongs := hbuilt.linked.of_mem_listed hmem
    rw [henclosing, hkind] at hbelongs
    exact ⟨(Option.some.inj hbelongs.1).symm, hbelongs.2.symm⟩
  · rintro ⟨rfl, rfl⟩
    rw [← hkind]
    exact hbuilt.mem_listed henclosing (Nat.le_of_lt (mem_ids.mp hknown))

/-- Whatever the steps are, every list is ascending and holds declarations that its owner encloses, of the
kinds that belong there, and no declaration stands in two lists. One that is added below a known
declaration stands in one list. The roots are the declarations that nothing encloses, in order. Metadata
leaves all of this alone, and is dropped where the number is unknown. -/
theorem lists_run (steps : List Step) :
    let t := run {} steps
    (∀ p l, (t.toHost.listed p l).Pairwise (·.index < ·.index)) ∧
    (∀ p l, ∀ x ∈ t.toHost.listed p l,
      t.toHost.enclosing x = some p ∧ (t.toHost.kind x).list = l) ∧
    (∀ x p q l m, x ∈ t.toHost.listed p l → x ∈ t.toHost.listed q m → p = q ∧ l = m) ∧
    (∀ before enclosing kind name type after,
      steps = before ++ .add (some enclosing) kind name type :: after →
      enclosing ∈ (run {} before).ids →
      ∃ x, ((run {} before).step (.add (some enclosing) kind name type)).1 = .added x ∧
        ∀ p l, x ∈ t.toHost.listed p l ↔ p = enclosing ∧ l = kind.list) ∧
    t.roots = t.ids.filter (fun x => (t.toHost.enclosing x).isNone) ∧
    ∀ id metadata,
      let (reply, t') := t.step (.attach id metadata)
      (∀ p l, t'.toHost.listed p l = t.toHost.listed p l) ∧
      (∀ x, t'.toHost.enclosing x = t.toHost.enclosing x ∧ t'.toHost.kind x = t.toHost.kind x) ∧
      t'.ids = t.ids ∧ t'.roots = t.roots ∧ reply = .attached (id ∈ t.ids) ∧
      (id ∉ t.ids → t' = t) := by
  intro t
  have hbuilt : t.Built := Built.empty.run steps
  have hbelongs {p x : DeclId} {l : DeclList} (hx : x ∈ t.toHost.listed p l) :=
    hbuilt.linked.of_mem_listed hx
  refine ⟨hbuilt.linked.listed_ascending, fun p l x => hbelongs, ?_, ?_, hbuilt.roots_eq, ?_⟩
  · intro x p q l m hp hq
    have hsame := (hbelongs hp).1.symm.trans (hbelongs hq).1
    exact ⟨Option.some.inj hsame, (hbelongs hp).2.symm.trans (hbelongs hq).2⟩
  · intro before enclosing kind name type after hsteps hknown
    refine ⟨(run {} before).next, rfl, ?_⟩
    subst hsteps
    exact mem_listed_run_iff hknown
  · intro id metadata
    have hreply : (t.get? id).isSome = decide (id ∈ t.ids) := by
      rw [Bool.eq_iff_iff, decide_eq_true_iff, mem_ids]
      simp [get?, size]
    exact ⟨t.listed_attach id metadata,
      fun x => ⟨t.enclosing_attach id metadata x, t.kind_attach id metadata x⟩,
      t.ids_attach id metadata, rfl, congrArg Reply.attached hreply, t.attach_of_not_mem id metadata⟩

/-- A package, a member of a declaration that is not there yet, a class in the package with a parameter,
a declaration that encloses itself, and metadata for a number that is never given. -/
def scattered : List Step :=
  [.add none .package "p" none, .add (some ⟨2⟩) .method "f" none, .add (some ⟨0⟩) .classType "C" none,
    .add (some ⟨2⟩) .parameter "x" none, .add (some ⟨4⟩) .other "s" none, .attach ⟨9⟩ .synthetic]

/-- The class stands in the package, and the method in no list of the class. -/
theorem lists_scattered :
    ⟨0⟩ ∈ (run {} (scattered.take 2)).ids ∧
      (∀ p l, ⟨2⟩ ∈ (run {} scattered).toHost.listed p l ↔ p = ⟨0⟩ ∧ l = .enclosed) ∧
      (run {} scattered).toHost.enclosed ⟨2⟩ = [] ∧
      ⟨9⟩ ∉ (run {} scattered).ids ∧
      (run {} scattered).attach ⟨9⟩ .synthetic = run {} scattered := by
  obtain ⟨-, -, -, hadded, -, hattach⟩ := lists_run scattered
  have hknown : ⟨0⟩ ∈ (run {} (scattered.take 2)).ids := by decide
  obtain ⟨x, hx, hlisted⟩ := hadded (scattered.take 2) ⟨0⟩ .classType "C" none (scattered.drop 3) rfl hknown
  obtain rfl := Reply.added.inj hx
  have hunknown : ⟨9⟩ ∉ (run {} scattered).ids := by decide
  exact ⟨hknown, hlisted, rfl, hunknown, (hattach ⟨9⟩ .synthetic).2.2.2.2.2 hunknown⟩

end DeclTree

end Correspondence
