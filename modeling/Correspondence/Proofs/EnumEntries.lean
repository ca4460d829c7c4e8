import Correspondence.Proofs.Members

/-!
# Enum entries

An enum entry corresponds to the one constant of the compiled type with its name. The order of the
constants and constants with other names are of no account. Where an entry has no such constant, or
several, making the entries fails for the first one of that kind.
-/

namespace Correspondence

/-- The number of the element that is added after some others. -/
def Batch.idAfter (b : Batch) (i : Nat) : ElementId :=
  ⟨b.next.index + i⟩

/-- An element that is not added stands for something that another one has claimed. -/
theorem BuildM.add_eq_error {host : Host} {e : Element} {b : Batch} {err : ResolveError}
    (h : BuildM.add host e b = .error err) :
    ∃ d ∈ e.hostForms, (∃ j, b.claims.find? d = some j ∧ j ≠ b.next) ∧
      ∃ earlier later, err = .doubleClaim (host.describe d) earlier later := by
  rcases bind_eq_error_iff.mp h with hpush | ⟨id, b₁, hpush, h⟩
  · cases hpush
  · obtain ⟨rfl, rfl⟩ : b.next = id ∧ b.push e = b₁ := by simpa [push] using hpush
    rcases bind_eq_error_iff.mp h with hclaim | ⟨u, b₂, -, hpure⟩
    · exact claimAll_eq_error (b := b.push e) hclaim
    · cases hpure

namespace Container

variable {c : Container} {index : DescriptorIndex} {b b' : Batch} {i : Nat} {name : String}

/-- The constants of the type with a name, in the order of the host. -/
def constantsNamed (c : Container) (name : String) : List DeclId :=
  (c.host.members c.decl .enumConstant).filter fun d => c.host.simpleName d = name

/-- Whether an entry has the one constant with its name, which no other element has claimed. -/
structure Pairs (c : Container) (b : Batch) (i : Nat) (name : String) (d : DeclId) : Prop where
  only : c.constantsNamed name = [d]
  free {j : ElementId} : b.claims.find? d = some j → j = b.idAfter i

/-- What keeps an entry from being made. -/
inductive EntryFault (c : Container) (b : Batch) (i : Nat) (name : String) : ResolveError → Prop
  | missing (none : c.constantsNamed name = []) :
      EntryFault c b i name (.missingCorrespondence (c.host.describe c.decl) name name)
  | ambiguous (several : 2 ≤ (c.constantsNamed name).length) :
      EntryFault c b i name (.ambiguousCorrespondence (c.host.describe c.decl) name name
        ((c.constantsNamed name).map c.host.describe))
  | claimed {d : DeclId} {j : ElementId} {earlier later : String}
      (only : c.constantsNamed name = [d]) (claim : b.claims.find? d = some j)
      (other : j ≠ b.idAfter i) :
      EntryFault c b i name (.doubleClaim (c.host.describe d) earlier later)

/-- An entry that cannot be made has not the one constant. -/
theorem EntryFault.not_pairs {e : ResolveError} (h : c.EntryFault b i name e) :
    ¬ ∃ d, c.Pairs b i name d := by
  rintro ⟨d, hpairs⟩
  cases h with
  | missing none => cases hpairs.only.symm.trans none
  | ambiguous several =>
    rw [hpairs.only] at several
    exact Nat.not_succ_le_self 1 several
  | claimed only claim other =>
    obtain rfl := List.singleton_inj.mp (hpairs.only.symm.trans only)
    exact other (hpairs.free claim)

/-- What the index finds at the position of an entry are the constants with its name. -/
theorem constantsOf_eq (hindex : index.IsBuilt) (hname : index.enumEntries[i]? = some name) :
    c.constantsOf index i = c.constantsNamed name := by
  have hfound (d : DeclId) : index.enumEntryNamed? (c.host.simpleName d) = some i ↔
      c.host.simpleName d = name := by
    rw [DescriptorIndex.enumEntryNamed?, hindex.enumEntries, hname, Option.some.injEq, eq_comm]
  simp only [constantsOf, constantsNamed, hfound]

/-- What holds of a batch when some entries are made: each has the one constant with its name, and
constants with other names are claimed as before. -/
structure Paired (c : Container) (index : DescriptorIndex) (b : Batch) (i : Nat) (b' : Batch) :
    Prop where
  next : b'.next = b.idAfter i
  claims {d : DeclId} : (∀ k < i, index.enumEntries[k]? ≠ some (c.host.simpleName d)) →
    b'.claims.find? d = b.claims.find? d
  entries {k : Nat} {name : String} : k < i → index.enumEntries[k]? = some name →
    ∃ d, c.Pairs b k name d ∧
      b'.get? (b.idAfter k) = some (.enumEntry (c.enumEntryElement d (name, k)))

theorem paired_zero (c : Container) (index : DescriptorIndex) (b : Batch) :
    c.Paired index b 0 b where
  next := rfl
  claims _ := rfl
  entries hk := absurd hk (Nat.not_lt_zero _)

/-- One more entry is made, or it is at fault. -/
theorem Paired.step (hindex : index.IsBuilt) (h : c.Paired index b i b')
    (hname : index.enumEntries[i]? = some name) :
    (∃ b'', c.buildEntryAt index (name, i) b' = .ok (b.idAfter i, b'') ∧
      c.Paired index b (i + 1) b'') ∨
    ∃ e, c.buildEntryAt index (name, i) b' = .error e ∧ c.EntryFault b i name e := by
  have hconstants := constantsOf_eq (c := c) hindex hname
  match hlist : c.constantsNamed name with
  | [] =>
    refine .inr ⟨_, ?_, .missing hlist⟩
    simp only [buildEntryAt, buildEnumEntry, hconstants, hlist]
    rfl
  | d :: d' :: rest =>
    refine .inr ⟨_, ?_, .ambiguous (by rw [hlist]; simp)⟩
    simp only [buildEntryAt, buildEnumEntry, hconstants, hlist]
    rfl
  | [d] =>
    have hmem : d ∈ c.constantsNamed name := hlist ▸ List.mem_singleton_self d
    have hd : c.host.simpleName d = name := of_decide_eq_true (List.mem_filter.mp hmem).2
    -- Entries that were made before have other names, so they have not claimed the constant.
    have hclaims : b'.claims.find? d = b.claims.find? d := by
      refine h.claims fun k hk hsame => ?_
      rw [hd] at hsame
      exact Nat.ne_of_lt hk (hindex.enumEntries.eq_of_getElem? hsame hname)
    have hadd : c.buildEntryAt index (name, i) =
        BuildM.add c.host (.enumEntry (c.enumEntryElement d (name, i))) := by
      rw [BuildM.add_of_hostForms_eq (d := d) rfl]
      simp only [buildEntryAt, buildEnumEntry, hconstants, hlist]
      rfl
    rw [hadd]
    cases hrun : BuildM.add c.host (.enumEntry (c.enumEntryElement d (name, i))) b' with
    | error e =>
      obtain ⟨x, hx, ⟨j, hj, hne⟩, earlier, later, rfl⟩ := BuildM.add_eq_error hrun
      obtain rfl := List.mem_singleton.mp hx
      exact .inr ⟨_, rfl, .claimed hlist (hclaims ▸ hj) (h.next ▸ hne)⟩
    | ok p =>
      obtain ⟨id, b''⟩ := p
      have added := BuildM.add_eq_ok c.host hrun
      obtain rfl : id = b.idAfter i := added.id_eq.trans h.next
      refine .inl ⟨b'', rfl, ?_, fun {x} hx => ?_, fun {k name'} hk hname' => ?_⟩
      · rw [Batch.next, added.base, added.size, ← Nat.add_assoc]
        exact congrArg (fun id : ElementId => (⟨id.index + 1⟩ : ElementId)) h.next
      · have hne : x ≠ d := fun hx' => hx i (Nat.lt_succ_self i) (hx' ▸ hd ▸ hname)
        have hfree : x ∉ (Element.enumEntry (c.enumEntryElement d (name, i))).hostForms :=
          mt List.mem_singleton.mp hne
        rw [added.claims, if_neg hfree]
        exact h.claims fun k hk => hx k (Nat.lt_succ_of_lt hk)
      · rcases Nat.lt_succ_iff_lt_or_eq.mp hk with hk | rfl
        · obtain ⟨x, hpairs, hx⟩ := h.entries hk hname'
          exact ⟨x, hpairs, added.extends.element hx⟩
        · obtain rfl := Option.some.inj (hname.symm.trans hname')
          refine ⟨d, ⟨hlist, fun hj => ?_⟩, by rw [added.get?, if_pos rfl]⟩
          exact added.free (List.mem_singleton_self d) (hclaims ▸ hj)

/-- A run over the entries that are left makes them all, or stops at the first one at fault. -/
theorem Paired.run (hindex : index.IsBuilt) {l done : List String}
    (hl : index.enumEntries = done ++ l) (h : c.Paired index b done.length b') :
    (∃ b'', (l.zipIdx done.length).mapM (c.buildEntryAt index) b' =
        .ok ((List.range' done.length l.length).map b.idAfter, b'') ∧
      c.Paired index b index.enumEntries.length b'') ∨
    ∃ e i name, (l.zipIdx done.length).mapM (c.buildEntryAt index) b' = .error e ∧
      index.enumEntries[i]? = some name ∧ c.EntryFault b i name e ∧
      ∀ j < i, ∀ name', index.enumEntries[j]? = some name' → ∃ d, c.Pairs b j name' d := by
  induction l generalizing done b' with
  | nil =>
    rw [List.append_nil] at hl
    exact .inl ⟨b', rfl, hl ▸ h⟩
  | cons name l ih =>
    have hname : index.enumEntries[done.length]? = some name := by simp [hl]
    have hl' : index.enumEntries = (done ++ [name]) ++ l := by simp [hl]
    rw [List.zipIdx_cons, List.mapM_cons]
    rcases h.step hindex hname with ⟨b₁, hok, h₁⟩ | ⟨e, herror, hfault⟩
    · have hlength : (done ++ [name]).length = done.length + 1 := by simp
      rw [← hlength] at h₁
      rcases ih hl' h₁ with ⟨b₂, hrest, h₂⟩ | ⟨e, i, name', hrest, hi, hfault, hbefore⟩
      · refine .inl ⟨b₂, BuildM.bind_eq_ok_iff.mpr ⟨_, b₁, hok, ?_⟩, h₂⟩
        rw [hlength] at hrest
        exact BuildM.bind_eq_ok_iff.mpr ⟨_, b₂, hrest, rfl⟩
      · refine .inr ⟨e, i, name', BuildM.bind_eq_error_iff.mpr (.inr ⟨_, b₁, hok, ?_⟩), hi, hfault,
          hbefore⟩
        rw [hlength] at hrest
        exact BuildM.bind_eq_error_iff.mpr (.inl hrest)
    · refine .inr ⟨e, _, name, BuildM.bind_eq_error_iff.mpr (.inl herror), hname, hfault,
        fun j hj name' hname' => ?_⟩
      obtain ⟨d, hpairs, -⟩ := h.entries hj hname'
      exact ⟨d, hpairs⟩

/-- Enum entries are paired with the constants of their names, one to one. They are all made exactly
if each has only one constant with its name, and no other element has claimed it; then each stands for
that constant and has its name and its position. Otherwise the error is that of the first entry at
fault. -/
theorem buildEnumEntries_decides (hindex : index.IsBuilt) (c : Container) (b : Batch) :
    ((∃ ids b', c.buildEnumEntries index b = .ok (ids, b')) ↔
      ∀ i name, index.enumEntries[i]? = some name → ∃ d, c.Pairs b i name d) ∧
    (∀ ids b', c.buildEnumEntries index b = .ok (ids, b') →
      ids.length = index.enumEntries.length ∧
      ∀ (i : Nat) (name : String), index.enumEntries[i]? = some name →
        ∃ id d, ids[i]? = some id ∧ c.constantsNamed name = [d] ∧
          b'.get? id = some (.enumEntry { host := d, owner := c.owner, name, ordinal := i })) ∧
    ∀ e, c.buildEnumEntries index b = .error e →
      ∃ i name, index.enumEntries[i]? = some name ∧ c.EntryFault b i name e ∧
        ∀ j < i, ∀ name', index.enumEntries[j]? = some name' → ∃ d, c.Pairs b j name' d := by
  have hl : index.enumEntries = [] ++ index.enumEntries := rfl
  rw [buildEnumEntries_eq]
  rcases (paired_zero c index b).run hindex hl with ⟨b₁, hok, h₁⟩ | ⟨e₁, i₁, name₁, herror, hi₁, hfault₁, hbefore₁⟩
  · have hok : index.enumEntries.zipIdx.mapM (c.buildEntryAt index) b =
      .ok ((List.range' 0 index.enumEntries.length).map b.idAfter, b₁) := hok
    have hlt {i : Nat} {name : String} (hi : index.enumEntries[i]? = some name) :
        i < index.enumEntries.length := (List.getElem?_eq_some_iff.mp hi).1
    refine ⟨⟨fun _ i name hi => ?_, fun _ => ⟨_, _, hok⟩⟩, fun ids b' h => ?_, fun e h => ?_⟩
    · obtain ⟨d, hpairs, -⟩ := h₁.entries (hlt hi) hi
      exact ⟨d, hpairs⟩
    · obtain ⟨rfl, rfl⟩ := Prod.mk.inj (Except.ok.inj (hok.symm.trans h))
      refine ⟨by simp, fun i name hi => ?_⟩
      obtain ⟨d, hpairs, hd⟩ := h₁.entries (hlt hi) hi
      exact ⟨b.idAfter i, d, by simp [hlt hi], hpairs.only, hd⟩
    · cases hok.symm.trans h
  · have herror : index.enumEntries.zipIdx.mapM (c.buildEntryAt index) b = .error e₁ := herror
    refine ⟨⟨?_, fun hall => ?_⟩, fun ids b' h => ?_, fun e h => ?_⟩
    · rintro ⟨ids, b', h⟩
      cases herror.symm.trans h
    · exact absurd (hall i₁ name₁ hi₁) hfault₁.not_pairs
    · cases herror.symm.trans h
    · obtain rfl := Except.error.inj (herror.symm.trans h)
      exact ⟨i₁, name₁, hi₁, hfault₁, hbefore₁⟩

end Container

/-- The metadata of an enum with the entries `ON` and `OFF`. -/
def ClassMetadata.modes : ClassMetadata where
  strings := .ofList ["Mode", "ON", "OFF"]
  descriptor := { qualifiedName := ⟨0⟩, kind := .enum, enumEntries := [⟨1⟩, ⟨2⟩] }

/-- The index of the enum. -/
def DescriptorIndex.modes : DescriptorIndex where
  owner := "Mode"
  enumEntries := ["ON", "OFF"]
  enumEntryPositions := ⟨[("OFF", 1), ("ON", 0)]⟩

theorem DescriptorIndex.isBuilt_modes : modes.IsBuilt :=
  .inl ⟨"Mode", .modes, rfl⟩

/-- A compiled enum with the given constants. -/
def DeclTree.modes (constants : List String) : DeclTree :=
  constants.foldl (fun t name => t.add (some ⟨0⟩) .enumConstant name none)
    (({} : DeclTree).add none .enumType "Mode" none)

namespace Container

/-- The enum with the given constants. -/
def ofModes (constants : List String) : Container :=
  { host := (DeclTree.modes constants).toHost, decl := ⟨0⟩, owner := ⟨0⟩, verifyShapes := false }

/-- The entries find their constants in another order and among others. With two constants of a name
its entry is at fault. -/
theorem buildEnumEntries_modes :
    (∃ ids b', (ofModes ["OFF", "LEFT", "ON"]).buildEnumEntries .modes { base := 1 } =
      .ok (ids, b') ∧ ∃ id, ids[0]? = some id ∧
        b'.get? id = some (.enumEntry { host := ⟨3⟩, owner := ⟨0⟩, name := "ON", ordinal := 0 })) ∧
    (ofModes ["OFF", "ON", "ON"]).buildEnumEntries .modes { base := 1 } =
      .error (.ambiguousCorrespondence "Mode" "ON" "ON" ["Mode.ON", "Mode.ON"]) := by
  have hdecides (constants : List String) := buildEnumEntries_decides DescriptorIndex.isBuilt_modes
    (ofModes constants) { base := 1 }
  constructor
  · obtain ⟨hok, hmade, -⟩ := hdecides ["OFF", "LEFT", "ON"]
    obtain ⟨ids, b', h⟩ := hok.mpr fun i name hi => by
      match i, hi with
      | 0, hi =>
        obtain rfl : "ON" = name := Option.some.inj hi
        exact ⟨⟨3⟩, rfl, nofun⟩
      | 1, hi =>
        obtain rfl : "OFF" = name := Option.some.inj hi
        exact ⟨⟨1⟩, rfl, nofun⟩
    obtain ⟨id, d, hid, honly, hd⟩ := (hmade ids b' h).2 0 "ON" rfl
    obtain rfl : (⟨3⟩ : DeclId) = d := List.singleton_inj.mp honly
    exact ⟨ids, b', h, id, hid, hd⟩
  · obtain ⟨hok, -, herror⟩ := hdecides ["OFF", "ON", "ON"]
    have hnone : ¬ ∃ d, (ofModes ["OFF", "ON", "ON"]).Pairs { base := 1 } 0 "ON" d := by
      rintro ⟨d, honly, -⟩
      cases honly
    cases h : (ofModes ["OFF", "ON", "ON"]).buildEnumEntries .modes { base := 1 } with
    | ok p => exact absurd (hok.mp ⟨p.1, p.2, h⟩ 0 "ON" rfl) hnone
    | error e =>
      obtain ⟨i, name, hi, hfault, hbefore⟩ := herror e h
      obtain rfl : i = 0 := by
        by_contra hi0
        exact hnone (hbefore 0 (Nat.pos_of_ne_zero hi0) "ON" rfl)
      obtain rfl : "ON" = name := Option.some.inj hi
      cases hfault with
      | missing none => cases none
      | claimed only => cases only
      | ambiguous => rfl

end Container

end Correspondence
