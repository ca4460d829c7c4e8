import Correspondence.Proofs.Containers

/-!
# Renumbering

Making the elements of a class or file does not depend on the number of the first one. With another
first number the same elements are made, and the same errors found.
-/

namespace Correspondence

namespace Lookup

variable {α β γ : Type} [DecidableEq α]

/-- The map with every value replaced. -/
def map (f : β → γ) (m : Lookup α β) : Lookup α γ :=
  ⟨m.bindings.map fun x => (x.1, f x.2)⟩

@[simp] theorem find?_map (f : β → γ) (m : Lookup α β) (key : α) :
    (m.map f).find? key = (m.find? key).map f := by
  simp only [find?, map]
  induction m.bindings with
  | nil => rfl
  | cons x xs ih =>
    obtain ⟨k, v⟩ := x
    cases hk : key == k <;> simp [List.lookup_cons, hk, ih]

end Lookup

/-- The number that comes `n` later. -/
def ElementId.shift (n : Nat) (id : ElementId) : ElementId :=
  ⟨n + id.index⟩

theorem ElementId.shift_inj {n : Nat} {id j : ElementId} :
    id.shift n = j.shift n ↔ id = j := by
  obtain ⟨i⟩ := id
  obtain ⟨k⟩ := j
  simp [shift]

theorem ElementId.shift_sub {n : Nat} {id : ElementId} (h : n ≤ id.index) :
    (⟨id.index - n⟩ : ElementId).shift n = id := by
  obtain ⟨i⟩ := id
  have hle : n ≤ i := h
  simp [shift, hle]

namespace Batch

variable (n : Nat) (b : Batch)

/-- The batch whose numbers come `n` later. -/
def shift : Batch where
  base := n + b.base
  elements := b.elements.map (Element.mapIds (.shift n))
  claims := b.claims.map (.shift n)

theorem shift_empty : ({ base := 0 } : Batch).shift n = { base := n } := by
  simp [shift, Lookup.map, Lookup.empty]

theorem next_shift : (b.shift n).next = b.next.shift n := by
  simp [next, shift, ElementId.shift, Nat.add_assoc]

theorem push_shift (e : Element) :
    (b.shift n).push (e.mapIds (.shift n)) = (b.push e).shift n := by
  simp [push, shift]

theorem get?_shift (id : ElementId) :
    (b.shift n).get? (id.shift n) = (b.get? id).map (Element.mapIds (.shift n)) := by
  have hlt : n + id.index < n + b.base ↔ id.index < b.base := by omega
  have hsub : n + id.index - (n + b.base) = id.index - b.base := by omega
  simp only [get?, shift, ElementId.shift, hlt, hsub]
  split <;> simp

theorem modify_shift {change change' : Element → Element}
    (hchange : ∀ e, change' (e.mapIds (.shift n)) = (change e).mapIds (.shift n))
    (id : ElementId) : (b.shift n).modify (id.shift n) change' = (b.modify id change).shift n := by
  have hlt : n + id.index < n + b.base ↔ id.index < b.base := by omega
  have hsub : n + id.index - (n + b.base) = id.index - b.base := by omega
  simp only [modify, shift, ElementId.shift, hlt, hsub]
  split
  · rfl
  · simp only [mk.injEq, true_and, and_true]
    apply Array.ext <;> simp [Array.getElem_modify]
    intro i hi
    split <;> simp [hchange]

theorem claim_shift (host : Host) (id : ElementId) (d : DeclId) :
    (b.shift n).claim host d (id.shift n) = (b.claim host d id).map (Batch.shift n) := by
  have hdescribe (j : ElementId) : (b.shift n).describe (j.shift n) = b.describe j := by
    simp [describe, get?_shift, Function.comp_def]
  have hfind : (b.shift n).claims.find? d = (b.claims.find? d).map (.shift n) :=
    Lookup.find?_map _ _ _
  cases hd : b.claims.find? d with
  | none =>
    simp only [claim, hfind, hd, Option.map_none, Except.map]
    rfl
  | some j =>
    simp only [claim, hfind, hd, Option.map_some, ElementId.shift_inj, hdescribe]
    split <;> rfl

end Batch

namespace BuildM

variable {α β α' β' : Type} {n : Nat}

/-- Whether `y` does with later numbers what `x` does. -/
def Shifts (n : Nat) (f : α → β) (x : BuildM α) (y : BuildM β) : Prop :=
  ∀ b : Batch, y (b.shift n) = (x b).map fun p => (f p.1, p.2.shift n)

theorem Shifts.exists_eq_ok {f : α → β} {x : BuildM α} {y : BuildM β} (h : Shifts n f x y)
    {b : Batch} {q : β × Batch} (hq : y (b.shift n) = .ok q) : ∃ a b', x b = .ok (a, b') := by
  rw [h] at hq
  cases hrun : x b with
  | ok p => exact ⟨p.1, p.2, rfl⟩
  | error e =>
    rw [hrun] at hq
    cases hq

theorem Shifts.bind {f : α → β} {g : α' → β'} {x : BuildM α} {y : BuildM β} {k : α → BuildM α'}
    {l : β → BuildM β'} (hx : Shifts n f x y) (hk : ∀ a, Shifts n g (k a) (l (f a))) :
    Shifts n g (x >>= k) (y >>= l) := by
  intro b
  change (y (b.shift n) >>= fun q => l q.1 q.2) = Except.map _ (x b >>= fun q => k q.1 q.2)
  rw [hx]
  cases x b with
  | error e => rfl
  | ok q => exact hk q.1 q.2

theorem Shifts.pure {f : α → β} {a : α} {a' : β} (h : a' = f a) :
    Shifts n f (pure a) (pure a') := by
  subst h
  exact fun _ => rfl

theorem Shifts.throw (f : α → β) (e : ResolveError) : Shifts n f (throw e) (throw e) :=
  fun _ => rfl

theorem Shifts.ite {f : α → β} {p : Prop} [Decidable p] {x x' : BuildM α} {y y' : BuildM β}
    (hx : Shifts n f x y) (hx' : Shifts n f x' y') :
    Shifts n f (if p then x else x') (if p then y else y') := by
  split
  · exact hx
  · exact hx'

theorem Shifts.lift_map {f : α → β} {x : Except ResolveError α} {y : Except ResolveError β}
    (h : y = x.map f) : Shifts n f (liftM x : BuildM α) (liftM y : BuildM β) := by
  subst h
  intro b
  change (x.map f >>= fun a => Except.ok (a, b.shift n)) =
    Except.map _ (x >>= fun a => Except.ok (a, b))
  cases x <;> rfl

theorem Shifts.lift (x : Except ResolveError α) :
    Shifts n (fun a => a) (liftM x : BuildM α) (liftM x : BuildM α) :=
  .lift_map (by cases x <;> rfl)

theorem Shifts.lift_bind {g : α' → β'} {x : Except ResolveError α} {k : α → BuildM α'}
    {l : α → BuildM β'} (hk : ∀ a, x = .ok a → Shifts n g (k a) (l a)) :
    Shifts n g ((liftM x : BuildM α) >>= k) ((liftM x : BuildM α) >>= l) := by
  intro b
  cases h : x with
  | error e => rfl
  | ok a => exact hk a h b

theorem Shifts.mapM {f : α → β} {g : α' → BuildM α} {g' : α' → BuildM β} (l : List α')
    (h : ∀ x ∈ l, Shifts n f (g x) (g' x)) : Shifts n (List.map f) (l.mapM g) (l.mapM g') := by
  induction l with
  | nil => exact .pure rfl
  | cons x l ih =>
    rw [List.mapM_cons, List.mapM_cons]
    refine (h x List.mem_cons_self).bind fun a => ?_
    refine (ih fun y hy => h y (List.mem_cons_of_mem _ hy)).bind fun as => ?_
    exact .pure rfl

theorem Shifts.push (e : Element) :
    Shifts n (.shift n) (push e) (push (e.mapIds (.shift n))) := by
  intro b
  simp [BuildM.push, Except.map, Batch.next_shift, Batch.push_shift]

theorem Shifts.claim (host : Host) (id : ElementId) (d : DeclId) :
    Shifts n (fun u => u) (claim host id d) (claim host (id.shift n) d) := by
  intro b
  simp only [BuildM.claim, Batch.claim_shift]
  cases b.claim host d id <;> rfl

theorem Shifts.claimAll (host : Host) (id : ElementId) (ds : List DeclId) :
    Shifts n (fun u => u) (claimAll host id ds) (claimAll host (id.shift n) ds) := by
  induction ds with
  | nil => exact .pure rfl
  | cons d ds ih => exact (Shifts.claim host id d).bind fun _ => ih

theorem Shifts.modify {change change' : Element → Element}
    (hchange : ∀ e, change' (e.mapIds (.shift n)) = (change e).mapIds (.shift n))
    (id : ElementId) : Shifts n (fun u => u) (modify id change) (modify (id.shift n) change') := by
  intro b
  simp [BuildM.modify, Except.map, Batch.modify_shift n b hchange]

theorem Shifts.add (host : Host) (e : Element) :
    Shifts n (.shift n) (add host e) (add host (e.mapIds (.shift n))) := by
  unfold BuildM.add
  refine (Shifts.push e).bind fun id => ?_
  rw [Element.hostForms_mapIds]
  exact (Shifts.claimAll host id _).bind fun _ => .pure rfl

end BuildM

namespace Container

open BuildM

variable (c : Container) (n : Nat)

/-- The class or file with a later number. -/
def shift : Container :=
  { c with owner := c.owner.shift n }

theorem buildTypeParameter_shifts (strings : StringTable) (decl : DeclId) (owner : ElementId)
    (x : (DeclId × TypeParameterDescriptor) × Nat) :
    Shifts n (.shift n) (c.buildTypeParameter strings decl owner x)
      ((c.shift n).buildTypeParameter strings decl (owner.shift n) x) := by
  obtain ⟨⟨param, descriptor⟩, position⟩ := x
  refine (Shifts.lift _).bind fun name => ?_
  dsimp only [shift]
  split
  · exact (Shifts.push _).bind fun id => (Shifts.claim _ id _).bind fun _ => .pure rfl
  · exact .throw _ _

theorem buildTypeParameters_shifts (strings : StringTable) (decl : DeclId) (owner : ElementId)
    (descriptors : List TypeParameterDescriptor) :
    Shifts n (List.map (.shift n)) (c.buildTypeParameters strings decl owner descriptors)
      ((c.shift n).buildTypeParameters strings decl (owner.shift n) descriptors) := by
  unfold buildTypeParameters
  dsimp only [shift]
  split
  · exact .mapM _ fun x _ => c.buildTypeParameter_shifts n strings decl owner x
  · exact (Shifts.lift _).bind fun name => .throw _ _

theorem buildParameters_shifts (owner : ElementId) (found : MemberMatch)
    (params : List IndexedParameter) :
    Shifts n (List.map (.shift n)) (c.buildParameters owner found params)
      ((c.shift n).buildParameters (owner.shift n) found params) := by
  refine .mapM _ fun x _ => ?_
  rw [buildParameter_eq, buildParameter_eq]
  exact .add c.host (parameterElement owner x)

theorem buildConstructor_shifts (index : DescriptorIndex)
    (x : IndexedConstructor × ConstructorDescriptor) :
    Shifts n (fun y => (y.1, y.2.shift n)) (c.buildConstructor index x)
      ((c.shift n).buildConstructor index x) := by
  obtain ⟨indexed, descriptor⟩ := x
  refine (Shifts.lift _).bind fun found => ?_
  refine .ite (.throw _ _) ?_
  refine (Shifts.push _).bind fun id => (Shifts.claimAll _ id _).bind fun _ => ?_
  refine (c.buildParameters_shifts n id found _).bind fun parameters => ?_
  refine (Shifts.modify (fun e => ?_) id).bind fun _ => .pure rfl
  cases e <;> rfl

theorem primaryFirst_map (owner : String) (l : List (Bool × ElementId)) :
    primaryFirst owner (l.map fun x => (x.1, x.2.shift n)) =
      (primaryFirst owner l).map (List.map (.shift n)) := by
  simp only [primaryFirst_eq, List.map_eq_nil_iff, List.filter_map, Function.comp_def,
    List.length_map, ← List.map_append]
  split
  · simp [Except.map, Function.comp_def]
  · rfl

theorem buildConstructors_shifts (index : DescriptorIndex)
    (descriptors : List ConstructorDescriptor) :
    Shifts n (List.map (.shift n)) (c.buildConstructors index descriptors)
      ((c.shift n).buildConstructors index descriptors) := by
  refine (Shifts.mapM _ fun x _ => c.buildConstructor_shifts n index x).bind fun made => ?_
  exact .lift_map (primaryFirst_map n _ made)

theorem buildFunction_shifts (index : DescriptorIndex) (strings : StringTable)
    (x : IndexedFunction × FunctionDescriptor) :
    Shifts n (.shift n) (c.buildFunction index strings x)
      ((c.shift n).buildFunction index strings x) := by
  obtain ⟨indexed, descriptor⟩ := x
  unfold buildFunction
  dsimp only
  split
  · exact .throw _ _
  refine (Shifts.lift _).bind fun found => ?_
  refine (Shifts.push _).bind fun id => (Shifts.claimAll _ id _).bind fun _ => ?_
  refine (c.buildParameters_shifts n id found _).bind fun parameters => ?_
  refine (c.buildTypeParameters_shifts n strings _ id _).bind fun typeParameters => ?_
  refine (Shifts.modify (fun e => ?_) id).bind fun _ => .pure rfl
  cases e <;> rfl

theorem buildFunctions_shifts (index : DescriptorIndex) (strings : StringTable)
    (descriptors : List FunctionDescriptor) :
    Shifts n (List.map (.shift n)) (c.buildFunctions index strings descriptors)
      ((c.shift n).buildFunctions index strings descriptors) :=
  .mapM _ fun x _ => c.buildFunction_shifts n index strings x

theorem buildProperties_shifts (index : DescriptorIndex) (descriptors : List PropertyDescriptor) :
    Shifts n (List.map (.shift n)) (c.buildProperties index descriptors)
      ((c.shift n).buildProperties index descriptors) := by
  refine .mapM _ fun x _ => ?_
  obtain ⟨indexed, descriptor⟩ := x
  refine (Shifts.lift _).bind fun found => ?_
  exact (Shifts.push _).bind fun id => (Shifts.claimAll _ id _).bind fun _ => .pure rfl

theorem buildEnumEntry_shifts (x : (String × List DeclId) × Nat) :
    Shifts n (.shift n) (c.buildEnumEntry x) ((c.shift n).buildEnumEntry x) := by
  obtain ⟨⟨name, _ | ⟨host, _ | ⟨other, several⟩⟩⟩, ordinal⟩ := x
  · exact .throw _ _
  · exact (Shifts.push _).bind fun id => (Shifts.claim _ id _).bind fun _ => .pure rfl
  · exact .throw _ _

theorem buildEnumEntries_shifts (index : DescriptorIndex) :
    Shifts n (List.map (.shift n)) (c.buildEnumEntries index)
      ((c.shift n).buildEnumEntries index) :=
  .mapM _ fun x _ => c.buildEnumEntry_shifts n x

theorem buildDeclaredConstructors_shifts (index : DescriptorIndex) (metadata : ClassMetadata) :
    Shifts n (List.map (.shift n)) (c.buildDeclaredConstructors index metadata)
      ((c.shift n).buildDeclaredConstructors index metadata) :=
  .ite (.pure rfl) (c.buildConstructors_shifts n index _)

theorem buildTypeMembers_shifts (index : DescriptorIndex) (metadata : ClassMetadata) :
    Shifts n (.shift n) (c.buildTypeMembers index metadata)
      ((c.shift n).buildTypeMembers index metadata) := by
  refine (c.buildTypeParameters_shifts n _ _ _ _).bind fun typeParameters => ?_
  refine (c.buildDeclaredConstructors_shifts n index metadata).bind fun constructors => ?_
  refine (c.buildFunctions_shifts n index _ _).bind fun functions => ?_
  refine (c.buildProperties_shifts n index _).bind fun properties => ?_
  refine (c.buildEnumEntries_shifts n index).bind fun enumEntries => ?_
  refine (Shifts.modify (fun e => ?_) c.owner).bind fun _ => .pure rfl
  cases e <;> rfl

theorem buildFileMembers_shifts (index : DescriptorIndex) (metadata : PackageMetadata) :
    Shifts n (.shift n) (c.buildFileMembers index metadata)
      ((c.shift n).buildFileMembers index metadata) := by
  refine (c.buildFunctions_shifts n index _ _).bind fun functions => ?_
  refine (c.buildProperties_shifts n index _).bind fun properties => ?_
  refine (Shifts.modify (fun e => ?_) c.owner).bind fun _ => .pure rfl
  cases e <;> rfl

end Container

namespace Building

open BuildM

variable {host : Host} {config : Config} {decl : DeclId}

theorem buildType_shifts (n : Nat) (metadata : ClassMetadata) :
    Shifts n (.shift n) (buildType host config decl metadata)
      (buildType host config decl metadata) := by
  rw [buildType_eq]
  refine .lift_bind fun x hheader => ?_
  obtain ⟨index, e⟩ := x
  have hadd := Shifts.add host (n := n) (.type e)
  rw [Element.mapIds_eq_self _ (typeHeader_ok hheader).2.2.2.2] at hadd
  exact hadd.bind fun id => Container.buildTypeMembers_shifts ⟨host, decl, id, _⟩ n index metadata

theorem buildFileFacade_shifts (n : Nat) (metadata : PackageMetadata) :
    Shifts n (.shift n) (buildFileFacade host config decl metadata)
      (buildFileFacade host config decl metadata) := by
  rw [buildFileFacade_eq]
  refine .lift_bind fun x hheader => ?_
  obtain ⟨index, e⟩ := x
  have hadd := Shifts.add host (n := n) (.fileFacade e)
  rw [Element.mapIds_eq_self _ (fileHeader_ok hheader).2.2] at hadd
  exact hadd.bind fun id => Container.buildFileMembers_shifts ⟨host, decl, id, _⟩ n index metadata

end Building

end Correspondence
