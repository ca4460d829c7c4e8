import Correspondence.Proofs.Arising
import Correspondence.Proofs.Integrity
import Correspondence.Proofs.Realization
import Mathlib.Data.List.ReduceOption

/-!
# Members and what encloses them

What an element is enclosed by is what the declaration around its own stands for, whether that was
recorded when the element was made or is looked for again. So each of the elements that an element
encloses leads back to it.
-/

namespace Correspondence

theorem Element.host?_eq_some_of_mem {e : Element} {d : DeclId} (hd : d ∈ e.hostForms)
    (howner : e.owner? = none) : e.host? = some d := by
  cases e <;> first | exact congrArg some (List.mem_singleton.mp hd).symm | cases howner

namespace Container

variable {c : Container} {b : Batch} {id owner : ElementId} {e : Element} {d : DeclId}

/-- The declaration around one that an element of a batch stands for is claimed for the owner of the
element. -/
theorem Complete.exists_enclosing (h : c.Complete b) (linked : c.host.Linked)
    (he : b.get? id = some e) (hd : d ∈ e.hostForms) (howner : e.owner? = some owner) :
    ∃ parent, c.host.enclosing d = some parent ∧ b.claims.find? parent = some owner := by
  obtain ⟨index, constructors, functions, hindex, hst⟩ := h.stage
  have hacc := hst.accounted he
  have member (hd : d ∈ c.host.enclosed c.decl) (howner' : e.owner? = some c.owner) :
      ∃ parent, c.host.enclosing d = some parent ∧ b.claims.find? parent = some owner := by
    obtain rfl := Option.some.inj (howner.symm.trans howner')
    exact ⟨c.decl, (linked.member hd).1, hst.own⟩
  cases e with
  | function f =>
    obtain ⟨x, -, found, hmade⟩ := hacc
    exact member (List.mem_filter.mp (hmade.mem_members hd)).1 (hmade.standsAt 0).owner
  | constructor f =>
    obtain ⟨x, -, found, hmade⟩ := hacc
    exact member (List.mem_filter.mp (hmade.mem_members hd)).1 (hmade.standsAt 0).owner
  | property p => exact member (hacc.hosts hd).1 hacc.owner?
  | enumEntry p => exact member (hacc.hosts hd).1 hacc.owner?
  | parameter p =>
    obtain rfl : p.owner = owner := Option.some.inj howner
    obtain ⟨e, _, _, _, found, he, -, -, hmatched, m, hm, hhost, hoverloads⟩ :=
      hst.exists_matched hindex he
    have hclaim (x : DeclId) (hx : x ∈ found.hosts) : b.claims.find? x = some p.owner :=
      hst.sound.claimed.mpr ⟨e, he, hmatched.hostForms ▸ hx⟩
    rcases List.mem_cons.mp hd with rfl | hd
    · exact ⟨found.host, (linked.parameter (hhost ▸ hmatched.fits.host_parameter_mem hm)).1,
        hclaim _ List.mem_cons_self⟩
    · obtain ⟨s, hs, hmem, -⟩ := hmatched.fits.same hm (hoverloads ▸ hd)
      exact ⟨s, (linked.parameter hmem).1, hclaim s (List.mem_cons_of_mem _ hs)⟩
  | typeParameter p =>
    obtain rfl : p.owner = owner := Option.some.inj howner
    obtain ⟨e, decl, he, hhost, hmem⟩ := h.exists_host he
    obtain rfl := List.mem_singleton.mp hd
    exact ⟨decl, (linked.typeParameter hmem).1,
      hst.sound.claimed.mpr ⟨e, he, List.mem_of_mem_head? hhost⟩⟩
  | implicit p => exact hacc.elim
  | _ => cases howner

end Container

namespace Resolver

variable {r : Resolver} {c c' : Cache} {d m : DeclId} {id owner : ElementId} {e : Element}

/-- An origin is that of one element of the cache only. -/
theorem Faithful.unique (h : r.Faithful c) (linked : r.host.Linked) {o : Origin}
    {id' : ElementId} (hid : o.Holds r c id) (hid' : o.Holds r c id') : id = id' := by
  cases o with
  | staged container place => exact staged_unique linked hid hid'
  | package decl =>
    exact h.id_unique hid hid' List.mem_cons_self List.mem_cons_self
  | implicit decl kind =>
    exact h.id_unique hid hid' List.mem_cons_self List.mem_cons_self
  | implicitIn o decl kind =>
    obtain ⟨owner, -, -, he⟩ := hid
    obtain ⟨owner', -, -, he'⟩ := hid'
    exact h.id_unique he he' List.mem_cons_self List.mem_cons_self

/-- What an element of a batch lists belongs to that element. -/
theorem owner?_of_listed (linked : r.host.Linked) {container : DeclId}
    {i place : ElementId} {b : Batch} {o : Element} {l : MemberList}
    (hb : r.batch? container = some b) (ho : b.get? i = some o) (hplace : place ∈ o.listed l)
    (h : Origin.Holds r c (.staged container place) id) (he : c.element? id = some e) :
    ∃ owner, e.owner? = some owner ∧ Origin.Holds r c (.staged container i) owner := by
  obtain ⟨n, e₀, hplaces, rfl, he₀⟩ := h.exists_places hb
  obtain rfl := Option.some.inj (he.symm.trans (hplaces.element he₀))
  obtain ⟨-, -, hcomplete⟩ := batch?_eq_some linked hb
  obtain ⟨k, hk⟩ := List.mem_iff_getElem?.mp hplace
  obtain ⟨e₁, he₁, hstands⟩ := (hcomplete.lists ho).standsAt hk
  obtain rfl := Option.some.inj (he₀.symm.trans he₁)
  refine ⟨i.shift n, ?_, b, n, hb, hplaces, rfl, o, ho⟩
  rw [Element.owner?_mapIds, hstands.owner, Option.map_some]

/-- Whatever declaration leads to an element, the recorded owner is what the declaration around it
stands for; and where none is recorded, the declaration is the only one that leads there. -/
theorem Faithful.owner?_cases (h : r.Faithful c) (linked : r.host.Linked)
    (acyclic : r.host.Acyclic) (hd : c.get? d = some id) (he : c.element? id = some e) :
    (e.owner? = none ∧ e.host? = some d) ∨
      ∃ owner parent o, e.owner? = some owner ∧ r.host.enclosing d = some parent ∧
        r.origin parent = .ok (some o) ∧ o.Holds r c owner := by
  obtain ⟨o, ho, hholds⟩ := h.entry hd
  cases arises_of_origin linked acyclic ho with
  | package hkind =>
    obtain rfl := Option.some.inj (he.symm.trans hholds)
    exact .inl ⟨rfl, rfl⟩
  | implicit kind hkind =>
    obtain rfl := Option.some.inj (he.symm.trans hholds)
    exact .inl ⟨rfl, rfl⟩
  | implicitIn kind hparent horigin =>
    obtain ⟨owner, howner, -, hel⟩ := hholds
    obtain rfl := Option.some.inj (he.symm.trans hel)
    exact .inr ⟨owner, _, _, rfl, hparent, horigin, howner⟩
  | @claimed container b place hb hclaim =>
    obtain ⟨n, e₀, hplaces, rfl, he₀⟩ := hholds.exists_places hb
    obtain rfl := Option.some.inj (he.symm.trans (hplaces.element he₀))
    obtain ⟨e₁, he₁, hforms⟩ := (sound_of_batch? linked hb).claimed.mp hclaim
    obtain rfl := Option.some.inj (he₀.symm.trans he₁)
    rw [Element.owner?_mapIds, Element.host?, Element.hostForms_mapIds]
    cases howner : e₀.owner? with
    | none => exact .inl ⟨rfl, Element.host?_eq_some_of_mem hforms howner⟩
    | some owner =>
      obtain ⟨-, -, hcomplete⟩ := batch?_eq_some linked hb
      obtain ⟨parent, hparent, hclaim'⟩ := hcomplete.exists_enclosing linked he₀ hforms howner
      obtain ⟨e', he', -⟩ := (sound_of_batch? linked hb).claimed.mp hclaim'
      exact .inr ⟨owner.shift n, parent, _, rfl, hparent,
        origin_of_claimed linked acyclic hb hclaim', b, n, hb, hplaces, rfl, e', he'⟩
  | namedParameter hparent horigin hb hget _ _ _ hids hplace =>
    obtain ⟨owner, howner, hholds'⟩ :=
      owner?_of_listed linked hb hget (Element.listed_of_parameters? hids ▸ hplace) hholds he
    exact .inr ⟨owner, _, _, howner, hparent, horigin, hholds'⟩
  | namedTypeParameter hparent horigin hb hget _ _ _ hids hplace =>
    obtain ⟨owner, howner, hholds'⟩ :=
      owner?_of_listed linked hb hget (Element.listed_of_typeParameters? hids ▸ hplace) hholds he
    exact .inr ⟨owner, _, _, howner, hparent, horigin, hholds'⟩

theorem enclosingElement_of_owner (he : c.element? id = some e) (howner : e.owner? = some owner) :
    r.enclosingElement id c = .ok (some owner) c := by
  simp only [enclosingElement, ResolveM.get_bind, he, howner]
  rfl

/-- Where no owner is recorded, what encloses an element is what the declaration around it stands
for. -/
theorem enclosingElement_of_get? (linked : r.host.Linked) (acyclic : r.host.Acyclic)
    (he : c.element? id = some e) (howner : e.owner? = none)
    (hparent : e.host?.bind r.host.enclosing = some d) (hd : c.get? d = some owner) :
    r.enclosingElement id c = .ok (some owner) c := by
  simp only [enclosingElement, ResolveM.get_bind, he, howner, hparent]
  simp only [bind, EStateM.bind, resolve_of_get? linked acyclic hd]
  rfl

/-- What a member stands for is enclosed by what its owner stands for. -/
theorem Faithful.enclosingElement_of_member (h : r.Faithful c) (linked : r.host.Linked)
    (acyclic : r.host.Acyclic) (hparent : r.host.enclosing m = some d) (hd : c.get? d = some owner)
    (hm : c.get? m = some id) : r.enclosingElement id c = .ok (some owner) c := by
  obtain ⟨o, ho, hholds⟩ := h.entry hd
  obtain ⟨om, -, hm'⟩ := h.entry hm
  obtain ⟨e, he⟩ := hm'.exists_element
  rcases h.owner?_cases linked acyclic hm he with
    ⟨hnone, hhost⟩ | ⟨owner', parent, o', howner, hparent', ho', hholds'⟩
  · exact enclosingElement_of_get? linked acyclic he hnone (by rw [hhost]; exact hparent) hd
  · obtain rfl := Option.some.inj (hparent.symm.trans hparent')
    obtain rfl := Option.some.inj (Except.ok.inj (ho.symm.trans ho'))
    obtain rfl := h.unique linked hholds hholds'
    exact enclosingElement_of_owner he howner

/-- What a cache has for a declaration that was asked for: an element, or none where it has no
origin. -/
def Answers (r : Resolver) (c : Cache) (d : DeclId) : Option ElementId → Prop
  | some id => c.get? d = some id
  | none => r.origin d = .ok none

theorem Answers.mono {x : Option ElementId} (h : r.Answers c d x) (hc : c.Grows c') :
    r.Answers c' d x := by
  cases x with
  | none => exact h
  | some id => exact hc.entry h

theorem answers_of_resolve (linked : r.host.Linked) (acyclic : r.host.Acyclic) (h : r.Faithful c)
    {x : Option ElementId} (hrun : r.resolve d c = .ok x c') : r.Keeps c c' ∧ r.Answers c' d x := by
  have hagrees := agrees_resolve linked acyclic d c h
  rw [hrun] at hagrees
  generalize hy : r.origin d = y at hagrees
  cases hagrees with
  | found keeps entry holds => exact ⟨keeps, entry⟩
  | absent keeps => exact ⟨keeps, hy⟩

theorem Answers.resolve (linked : r.host.Linked) (acyclic : r.host.Acyclic) (h : r.Faithful c)
    {x : Option ElementId} (hx : r.Answers c d x) : ∃ c', r.resolve d c = .ok x c' := by
  cases x with
  | some id => exact ⟨c, resolve_of_get? linked acyclic hx⟩
  | none =>
    have hagrees := agrees_resolve linked acyclic d c h
    have hx : r.origin d = .ok none := hx
    rw [hx] at hagrees
    generalize r.resolve d c = y at hagrees
    cases hagrees with
    | absent keeps => exact ⟨_, rfl⟩

/-- What encloses an element: the recorded owner, nothing, or what the declaration around it stands
for. -/
theorem enclosingElement_eq_ok (linked : r.host.Linked) (acyclic : r.host.Acyclic)
    (h : r.Faithful c) (he : c.element? id = some e) {x : Option ElementId}
    (hrun : r.enclosingElement id c = .ok x c') : r.Keeps c c' ∧
      (x = e.owner? ∧ x.isSome ∨
        e.owner? = none ∧ e.host?.bind r.host.enclosing = none ∧ x = none ∨
        e.owner? = none ∧ ∃ parent owner, e.host?.bind r.host.enclosing = some parent ∧
          c'.get? parent = some owner ∧ x = some owner) := by
  simp only [enclosingElement, ResolveM.get_bind, he] at hrun
  cases howner : e.owner? with
  | some owner =>
    simp only [howner] at hrun
    obtain ⟨rfl, rfl⟩ := EStateM.Result.ok.inj hrun
    exact ⟨h.keeps, .inl ⟨rfl, rfl⟩⟩
  | none =>
    cases hparent : e.host?.bind r.host.enclosing with
    | none =>
      simp only [howner, hparent] at hrun
      obtain ⟨rfl, rfl⟩ := EStateM.Result.ok.inj hrun
      exact ⟨h.keeps, .inr (.inl ⟨rfl, rfl, rfl⟩)⟩
    | some parent =>
      simp only [howner, hparent] at hrun
      obtain ⟨y, c₁, hy, hrun⟩ := ResolveM.bind_eq_ok_iff.mp hrun
      obtain ⟨hkeeps, hanswers⟩ := answers_of_resolve linked acyclic h hy
      cases y with
      | none => cases hrun
      | some owner =>
        obtain ⟨rfl, rfl⟩ := EStateM.Result.ok.inj hrun
        exact ⟨hkeeps, .inr (.inr ⟨rfl, parent, owner, rfl, hanswers, rfl⟩)⟩

/-- One more declaration adds its element, unless that is there already. -/
private theorem collect_ok (linked : r.host.Linked) (acyclic : r.host.Acyclic) (h : r.Faithful c)
    {before found : List ElementId} (hrun : r.collect before.eraseDups d c = .ok found c') :
    ∃ x, r.Keeps c c' ∧ r.Answers c' d x ∧ found = (before ++ x.toList).eraseDups := by
  obtain ⟨x, c₁, hx, hrun⟩ := ResolveM.bind_eq_ok_iff.mp hrun
  obtain ⟨hkeeps, hanswers⟩ := answers_of_resolve linked acyclic h hx
  cases x with
  | none =>
    obtain ⟨rfl, rfl⟩ := EStateM.Result.ok.inj hrun
    exact ⟨none, hkeeps, hanswers, by simp⟩
  | some id =>
    obtain ⟨rfl, rfl⟩ := EStateM.Result.ok.inj hrun
    refine ⟨some id, hkeeps, hanswers, ?_⟩
    simp only [Option.toList_some, eraseDups_concat, List.mem_eraseDups]

/-- The list has what the declarations stand for, each element where it comes first. -/
private theorem foldlM_collect_ok (linked : r.host.Linked) (acyclic : r.host.Acyclic)
    {decls : List DeclId} (h : r.Faithful c) (before : List ElementId) {list : List ElementId}
    (hrun : decls.foldlM r.collect before.eraseDups c = .ok list c') :
    ∃ answers, r.Keeps c c' ∧ List.Forall₂ (r.Answers c') decls answers ∧
      list = (before ++ answers.reduceOption).eraseDups := by
  induction decls generalizing c before with
  | nil =>
    obtain ⟨rfl, rfl⟩ := EStateM.Result.ok.inj hrun
    exact ⟨[], h.keeps, .nil, by simp⟩
  | cons d decls ih =>
    rw [List.foldlM_cons] at hrun
    obtain ⟨found, c₁, hfound, hrun⟩ := ResolveM.bind_eq_ok_iff.mp hrun
    obtain ⟨x, hkeeps, hanswers, rfl⟩ := collect_ok linked acyclic h hfound
    obtain ⟨answers, hkeeps', hall, rfl⟩ := ih hkeeps.faithful _ hrun
    refine ⟨x :: answers, hkeeps.trans hkeeps', .cons (hanswers.mono hkeeps'.grows) hall, ?_⟩
    cases x <;> simp

theorem mem_hostForms_of_memberHost? (h : memberHost? e = some d) : d ∈ e.hostForms := by
  cases e <;> first | exact Option.some.inj h ▸ List.mem_cons_self | cases h

theorem parameters?_of_memberHost? (h : memberHost? e = some d) : e.parameters? = none := by
  cases e <;> first | rfl | cases h

/-- The parameters of an executable are listed once each, and lead back to it. -/
private theorem Faithful.parameters_ok (h : r.Faithful c) (linked : r.host.Linked)
    (he : c.element? id = some e) {ids : List ElementId} (hids : e.parameters? = some ids) :
    ids.Nodup ∧ ∀ j ∈ ids, r.enclosingElement j c = .ok (some id) c := by
  have hlisted := Element.listed_of_parameters? hids
  have stands (j : ElementId) (hj : j ∈ ids) :
      ∃ e' i, c.element? j = some e' ∧ e'.StandsAt id .parameters i := by
    obtain ⟨i, hi⟩ := List.mem_iff_getElem?.mp (hlisted ▸ hj)
    obtain ⟨e', he', hstands⟩ := (h.intact linked he).listed hi
    exact ⟨e', i, he', hstands⟩
  refine ⟨List.nodup_iff_count_le_one.mpr fun j => ?_, fun j hj => ?_⟩
  · by_cases hj : j ∈ ids
    · obtain ⟨e', i, he', hstands⟩ := stands j hj
      obtain ⟨owner, o, howner, ho, hcount⟩ := (h.intact linked he').once hstands.list
      obtain rfl := Option.some.inj (hstands.owner.symm.trans howner)
      obtain rfl := Option.some.inj (he.symm.trans ho)
      exact (hlisted ▸ hcount .parameters).le
    · exact (List.count_eq_zero_of_not_mem hj).le.trans (Nat.zero_le 1)
  · obtain ⟨e', i, he', hstands⟩ := stands j hj
    exact enclosingElement_of_owner he' hstands.owner

/-- What the members of a declaration stand for is listed once each, and leads back. -/
private theorem Faithful.members_ok (h : r.Faithful c) (linked : r.host.Linked)
    (acyclic : r.host.Acyclic) (he : c.element? id = some e) (hd : memberHost? e = some d)
    {list : List ElementId} (hrun : (r.host.enclosed d).foldlM r.collect [] c = .ok list c') :
    ∃ answers, r.Faithful c' ∧ List.Forall₂ (r.Answers c') (r.host.enclosed d) answers ∧
      list = answers.reduceOption.eraseDups ∧
      ∀ j ∈ list, r.enclosingElement j c' = .ok (some id) c' := by
  obtain ⟨answers, hkeeps, hall, rfl⟩ := foldlM_collect_ok linked acyclic h [] hrun
  have hentry := hkeeps.grows.entry (h.filed he (mem_hostForms_of_memberHost? hd))
  refine ⟨answers, hkeeps.faithful, hall, rfl, fun j hj => ?_⟩
  have hj := List.reduceOption_mem_iff.mp (List.mem_eraseDups.mp hj)
  obtain ⟨m, hm, hanswer⟩ := exists_of_mem_forall₂ hall hj
  exact hkeeps.faithful.enclosingElement_of_member linked acyclic (linked.member hm).1 hentry hanswer

/-- What an element encloses, by what kind of element it is. -/
theorem enclosedElements_eq_ok {list : List ElementId}
    (hrun : r.enclosedElements id c = .ok list c') :
    (list = [] ∧ ∀ e, c.element? id = some e → e.parameters? = none ∧ memberHost? e = none) ∨
      (∃ e, c.element? id = some e ∧ e.parameters? = some list ∧ c' = c) ∨
      ∃ e d, c.element? id = some e ∧ memberHost? e = some d ∧
        (r.host.enclosed d).foldlM r.collect [] c = .ok list c' := by
  simp only [enclosedElements, ResolveM.get_bind] at hrun
  cases he : c.element? id with
  | none =>
    rw [he] at hrun
    obtain ⟨rfl, rfl⟩ := EStateM.Result.ok.inj hrun
    exact .inl ⟨rfl, fun e he => by cases he⟩
  | some e =>
    rw [he] at hrun
    cases hids : e.parameters? with
    | some ids =>
      simp only [hids] at hrun
      obtain ⟨rfl, rfl⟩ := EStateM.Result.ok.inj hrun
      exact .inr (.inl ⟨e, rfl, hids, rfl⟩)
    | none =>
      cases hd : memberHost? e with
      | none =>
        simp only [hids, hd] at hrun
        obtain ⟨rfl, rfl⟩ := EStateM.Result.ok.inj hrun
        exact .inl ⟨rfl, fun e' he' => Option.some.inj he' ▸ ⟨hids, hd⟩⟩
      | some d =>
        simp only [hids, hd] at hrun
        exact .inr (.inr ⟨e, d, rfl, hd, hrun⟩)

/-- In every cache that operations lead to, the elements that an element encloses are listed once each
and lead back to it. They are the parameters of an executable, and otherwise what the members of the
compiled declaration stand for, each where it comes first. -/
theorem enclosedElements_runAll {t : DeclTree} (built : t.Built) (acyclic : t.toHost.Acyclic)
    (config : Config) (ops : List Operation) :
    let r : Resolver := ⟨t.toHost, config⟩
    let c := r.runAll ops
    ∀ id list c', r.enclosedElements id c = .ok list c' →
      list.Nodup ∧
      (∀ e d, c.element? id = some e → memberHost? e = some d →
        ∃ answers, List.Forall₂ (fun m x => ∃ c'', r.resolve m c' = .ok x c'') (r.host.enclosed d)
          answers ∧ list = answers.reduceOption.eraseDups) ∧
      (∀ e ids, c.element? id = some e → e.parameters? = some ids → list = ids) ∧
      ∀ j ∈ list, r.enclosingElement j c' = .ok (some id) c' := by
  intro r c id list c' hrun
  have linked : r.host.Linked := built.linked.toHost
  have h : r.Faithful c := faithful_runAll linked acyclic ops
  rcases enclosedElements_eq_ok hrun with
    ⟨rfl, hnone⟩ | ⟨e, he, hids, rfl⟩ | ⟨e, d, he, hd, hfold⟩
  · refine ⟨.nil, fun e d he hd => ?_, fun e ids he hids => ?_, fun j hj => by cases hj⟩
    · cases (hnone e he).2.symm.trans hd
    · cases (hnone e he).1.symm.trans hids
  · obtain ⟨hnodup, hleads⟩ := h.parameters_ok linked he hids
    refine ⟨hnodup, fun e' d he' hd => ?_, fun e' ids he' hids' => ?_, hleads⟩
    · obtain rfl := Option.some.inj (he.symm.trans he')
      cases hids.symm.trans (parameters?_of_memberHost? hd)
    · obtain rfl := Option.some.inj (he.symm.trans he')
      exact Option.some.inj (hids.symm.trans hids')
  · obtain ⟨answers, h', hall, rfl, hleads⟩ := h.members_ok linked acyclic he hd hfold
    refine ⟨nodup_eraseDups _, fun e' d' he' hd' => ?_, fun e' ids he' hids => ?_, hleads⟩
    · obtain rfl := Option.some.inj (he.symm.trans he')
      obtain rfl := Option.some.inj (hd.symm.trans hd')
      exact ⟨answers, hall.imp fun m x => Answers.resolve linked acyclic h', rfl⟩
    · obtain rfl := Option.some.inj (he.symm.trans he')
      cases hids.symm.trans (parameters?_of_memberHost? hd)

private theorem enclosedElements_eq_propertied :
    ofPropertied.enclosedElements ⟨0⟩ Cache.propertied = .ok [⟨1⟩, ⟨2⟩]
      (ResolveM.after (ofPropertied.enclosedElements ⟨0⟩) Cache.propertied) := by
  decide +kernel

/-- The class encloses its property, to which four members lead, and its companion. Both lead back. -/
theorem enclosedElements_propertied :
    let c := ofPropertied.runAll [.resolve ⟨3⟩]
    ∃ c', ofPropertied.enclosedElements ⟨0⟩ c = .ok [⟨1⟩, ⟨2⟩] c' ∧
      ofPropertied.enclosingElement ⟨1⟩ c' = .ok (some ⟨0⟩) c' ∧
      ofPropertied.enclosingElement ⟨2⟩ c' = .ok (some ⟨0⟩) c' := by
  intro c
  have hc : c = Cache.propertied := runAll_propertied []
  obtain ⟨c', hrun⟩ : ∃ c', ofPropertied.enclosedElements ⟨0⟩ c = .ok [⟨1⟩, ⟨2⟩] c' := by
    rw [hc]
    exact ⟨_, enclosedElements_eq_propertied⟩
  obtain ⟨-, -, -, hleads⟩ := enclosedElements_runAll
    (DeclTree.built_propertied .propertied .companion)
    (DeclTree.acyclic_propertied .propertied .companion) {} [.resolve ⟨3⟩] _ _ _ hrun
  exact ⟨c', hrun, hleads ⟨1⟩ (by decide), hleads ⟨2⟩ (by decide)⟩

end Resolver

end Correspondence
