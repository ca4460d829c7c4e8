import Correspondence.Proofs.Runs

/-!
# Checks

A check only refuses. What a resolver answers without a failure it answers just so when checks are
turned off, and it leaves the same cache.
-/

namespace Correspondence

/-- Whether a configuration checks no more than another one, and assumes the same. -/
structure Config.Eases (config config' : Config) : Prop where
  defaultModuleName : config'.defaultModuleName = config.defaultModuleName
  verifyAccessorShapes : config'.verifyAccessorShapes → config.verifyAccessorShapes
  checkQualifiedNames : config'.checkQualifiedNames → config.checkQualifiedNames

/-- A configuration checks no more than the one that checks everything. -/
theorem Config.eases_of_strict (config : Config) :
    Eases { config with verifyAccessorShapes := true, checkQualifiedNames := true } config :=
  ⟨rfl, fun _ => rfl, fun _ => rfl⟩

namespace PropertyAssembler

variable {a : PropertyAssembler} {p : IndexedProperty}

theorem accessor_of_eases {shapes : Bool} (hshapes : shapes → a.verifyShapes) {role : AccessorRole}
    {found : Option DeclId} (h : a.accessor p role = .ok found) :
    { a with verifyShapes := shapes }.accessor p role = .ok found := by
  unfold accessor at h ⊢
  split at h
  · exact h
  obtain ⟨only, honly, h⟩ := Except.bind_eq_ok_iff.mp h
  refine Except.bind_eq_ok_iff.mpr ⟨only, honly, ?_⟩
  split at h
  · exact h
  · split at h
    · cases h
    · rename_i method hcheck
      rw [if_neg]
      · exact h
      · intro hfails
        simp only [Bool.and_eq_true, decide_eq_true_eq] at hcheck hfails
        exact hcheck ⟨hshapes hfails.1, hfails.2⟩

theorem assemble_of_eases {shapes : Bool} (hshapes : shapes → a.verifyShapes)
    {found : PropertyMatch} (h : a.assemble p = .ok found) :
    { a with verifyShapes := shapes }.assemble p = .ok found := by
  obtain ⟨hname, hfield, haccessor, hempty⟩ := assemble_eq_ok_iff.mp h
  exact assemble_eq_ok_iff.mpr ⟨hname, hfield,
    fun role hrole => accessor_of_eases hshapes (haccessor role hrole), hempty⟩

end PropertyAssembler

namespace BuildM

variable {α β : Type}

/-- Whether `y` does all that `x` does without a failure. -/
def Within (x y : BuildM α) : Prop :=
  ∀ b p, x b = .ok p → y b = .ok p

theorem Within.refl (x : BuildM α) : Within x x :=
  fun _ _ => id

theorem Within.bind {x y : BuildM α} {k l : α → BuildM β} (hx : Within x y)
    (hk : ∀ a, Within (k a) (l a)) : Within (x >>= k) (y >>= l) := by
  intro b p h
  obtain ⟨a, b', hx', hk'⟩ := bind_eq_ok_iff.mp h
  exact bind_eq_ok_iff.mpr ⟨a, b', hx _ _ hx', hk a _ _ hk'⟩

theorem Within.lift {x y : Except ResolveError α} (h : ∀ a, x = .ok a → y = .ok a) :
    Within (liftM x : BuildM α) (liftM y) := by
  rintro b ⟨a, b'⟩ hrun
  obtain ⟨hx, hb⟩ := lift_eq_ok_iff.mp hrun
  exact lift_eq_ok_iff.mpr ⟨h a hx, hb⟩

theorem Within.mapM {f g : α → BuildM β} (h : ∀ a, Within (f a) (g a)) (l : List α) :
    Within (l.mapM f) (l.mapM g) := by
  induction l with
  | nil => exact .refl _
  | cons a l ih =>
    rw [List.mapM_cons, List.mapM_cons]
    exact (h a).bind fun b => ih.bind fun bs => .refl _

end BuildM

namespace Building

open BuildM

variable {host : Host} {config config' : Config} {decl : DeclId}

theorem within_buildProperties {c : Container} {shapes : Bool} (hshapes : shapes → c.verifyShapes)
    (index : DescriptorIndex) (descriptors : List PropertyDescriptor) :
    Within (c.buildProperties index descriptors)
      ({ c with verifyShapes := shapes }.buildProperties index descriptors) := by
  refine .mapM (fun x => ?_) _
  obtain ⟨indexed, descriptor⟩ := x
  refine (Within.lift fun found h => ?_).bind fun found => .refl _
  exact PropertyAssembler.assemble_of_eases (a := c.assembler) hshapes h

theorem within_buildTypeMembers {c : Container} {shapes : Bool} (hshapes : shapes → c.verifyShapes)
    (index : DescriptorIndex) (metadata : ClassMetadata) :
    Within (c.buildTypeMembers index metadata)
      ({ c with verifyShapes := shapes }.buildTypeMembers index metadata) := by
  refine (Within.refl _).bind fun typeParameters => ?_
  refine (Within.refl _).bind fun constructors => ?_
  refine (Within.refl _).bind fun functions => ?_
  exact (within_buildProperties hshapes index _).bind fun properties => .refl _

theorem within_buildFileMembers {c : Container} {shapes : Bool} (hshapes : shapes → c.verifyShapes)
    (index : DescriptorIndex) (metadata : PackageMetadata) :
    Within (c.buildFileMembers index metadata)
      ({ c with verifyShapes := shapes }.buildFileMembers index metadata) := by
  refine (Within.refl _).bind fun functions => ?_
  exact (within_buildProperties hshapes index _).bind fun properties => .refl _

theorem mangler_of_eases (h : config.Eases config') (strings : StringTable)
    (moduleName : Option StringId) :
    mangler config' strings moduleName = mangler config strings moduleName := by
  simp only [mangler, h.defaultModuleName]

theorem typeHeader_of_eases (h : config.Eases config') {metadata : ClassMetadata}
    {x : DescriptorIndex × TypeElement} (hx : typeHeader host config decl metadata = .ok x) :
    typeHeader host config' decl metadata = .ok x := by
  obtain ⟨recordedName, hname, hx⟩ := Except.bind_eq_ok_iff.mp hx
  refine Except.bind_eq_ok_iff.mpr ⟨recordedName, hname, ?_⟩
  dsimp only at hx ⊢
  split at hx
  · cases hx
  rename_i hcheck
  rw [if_neg]
  · simp only [mangler_of_eases h]
    exact hx
  · intro hfails
    simp only [Bool.and_eq_true, decide_eq_true_eq] at hcheck hfails
    exact hcheck ⟨h.checkQualifiedNames hfails.1, hfails.2⟩

theorem within_buildType (h : config.Eases config') (metadata : ClassMetadata) :
    Within (buildType host config decl metadata) (buildType host config' decl metadata) := by
  rw [buildType_eq, buildType_eq]
  refine (Within.lift fun x => typeHeader_of_eases h).bind fun x => ?_
  refine (Within.refl _).bind fun id => ?_
  exact within_buildTypeMembers (c := ⟨host, decl, id, config.verifyAccessorShapes⟩)
    h.verifyAccessorShapes x.1 metadata

theorem within_buildFileFacade (h : config.Eases config') (metadata : PackageMetadata) :
    Within (buildFileFacade host config decl metadata)
      (buildFileFacade host config' decl metadata) := by
  rw [buildFileFacade_eq, buildFileFacade_eq]
  refine Within.bind (.lift fun x hx => ?_) fun x => ?_
  · simpa only [fileHeader, mangler_of_eases h] using hx
  refine (Within.refl _).bind fun id => ?_
  exact within_buildFileMembers (c := ⟨host, decl, id, config.verifyAccessorShapes⟩)
    h.verifyAccessorShapes x.1 metadata

end Building

namespace ResolveM

variable {α β : Type}

/-- Whether `y` does all that `x` does without a failure. -/
def Within (x y : ResolveM α) : Prop :=
  ∀ c a c', x c = .ok a c' → y c = .ok a c'

theorem Within.refl (x : ResolveM α) : Within x x :=
  fun _ _ _ => id

theorem Within.bind {x y : ResolveM α} {k l : α → ResolveM β} (hx : Within x y)
    (hk : ∀ a, Within (k a) (l a)) : Within (x >>= k) (y >>= l) := by
  intro c b c'' h
  obtain ⟨a, c', hx', hk'⟩ := bind_eq_ok_iff.mp h
  exact bind_eq_ok_iff.mpr ⟨a, c', hx _ _ _ hx', hk a _ _ _ hk'⟩

theorem Within.map {x y : ResolveM α} (f : α → β) (h : Within x y) :
    Within (f <$> x) (f <$> y) := by
  rw [map_eq_pure_bind, map_eq_pure_bind]
  exact h.bind fun a => .refl _

theorem Within.foldlM {f g : β → α → ResolveM β} (h : ∀ b a, Within (f b a) (g b a)) (l : List α)
    (b : β) : Within (l.foldlM f b) (l.foldlM g b) := by
  induction l generalizing b with
  | nil => exact .refl _
  | cons a l ih =>
    rw [List.foldlM_cons, List.foldlM_cons]
    exact (h b a).bind ih

theorem Within.mapM {f g : α → ResolveM β} (h : ∀ a, Within (f a) (g a)) (l : List α) :
    Within (l.mapM f) (l.mapM g) := by
  induction l with
  | nil => exact .refl _
  | cons a l ih =>
    rw [List.mapM_cons, List.mapM_cons]
    exact (h a).bind fun b => ih.bind fun bs => .refl _

end ResolveM

namespace Resolver

open ResolveM

variable {host : Host} {config config' : Config}

theorem within_commit {build build' : BuildM ElementId} (h : BuildM.Within build build') :
    Within (commit build) (commit build') := by
  intro c id c' hrun
  obtain ⟨c₀, c₁, hget, hrun⟩ := bind_eq_ok_iff.mp hrun
  refine bind_eq_ok_iff.mpr ⟨c₀, c₁, hget, ?_⟩
  cases hbuild : build c₀.begin with
  | ok p =>
    simp only [hbuild] at hrun
    simp only [h _ _ hbuild]
    exact hrun
  | error e =>
    simp only [hbuild] at hrun
    cases hrun

section Steps

variable {enclosing enclosing' : DeclId → ResolveM (Option ElementId)}
  (howner : ∀ d, Within (enclosing d) (enclosing' d)) (decl : DeclId)

include howner

theorem within_resolveImplicitType (kind : ImplicitKind) :
    Within (resolveImplicitType ⟨host, config⟩ enclosing decl kind)
      (resolveImplicitType ⟨host, config'⟩ enclosing' decl kind) := by
  unfold resolveImplicitType
  dsimp only
  split
  · exact (howner _).bind fun owner => .refl _
  · exact .refl _

theorem within_resolveType (h : config.Eases config') :
    Within (resolveType ⟨host, config⟩ enclosing decl)
      (resolveType ⟨host, config'⟩ enclosing' decl) := by
  unfold resolveType
  dsimp only
  split
  · exact (within_commit (Building.within_buildType h _)).map some
  · exact (within_commit (Building.within_buildFileFacade h _)).map some
  · exact .refl _
  · exact .refl _
  · exact within_resolveImplicitType howner decl _
  · split
    · exact within_resolveImplicitType howner decl _
    · exact .refl _

theorem within_resolveMember :
    Within (resolveMember ⟨host, config⟩ enclosing decl)
      (resolveMember ⟨host, config'⟩ enclosing' decl) := by
  unfold resolveMember
  dsimp only
  split
  · exact .refl _
  · exact (howner _).bind fun owner => .refl _

theorem within_resolveParameter :
    Within (resolveParameter ⟨host, config⟩ enclosing decl)
      (resolveParameter ⟨host, config'⟩ enclosing' decl) := by
  unfold resolveParameter
  dsimp only
  split
  · exact .refl _
  · exact (howner _).bind fun owner => .refl _

theorem within_resolveTypeParameter :
    Within (resolveTypeParameter ⟨host, config⟩ enclosing decl)
      (resolveTypeParameter ⟨host, config'⟩ enclosing' decl) := by
  unfold resolveTypeParameter
  dsimp only
  split
  · exact .refl _
  · split
    · exact .refl _
    · exact (howner _).bind fun owner => .refl _

theorem within_resolveSource (h : config.Eases config') :
    Within (resolveSource ⟨host, config⟩ enclosing decl)
      (resolveSource ⟨host, config'⟩ enclosing' decl) := by
  unfold resolveSource
  dsimp only
  split
  iterate 4 exact within_resolveType howner decl h
  iterate 6 exact within_resolveMember howner decl
  · exact within_resolveParameter howner decl
  · exact within_resolveTypeParameter howner decl
  · exact .refl _

theorem within_resolveStep (h : config.Eases config') :
    Within (resolveStep ⟨host, config⟩ enclosing decl)
      (resolveStep ⟨host, config'⟩ enclosing' decl) := by
  unfold resolveStep
  dsimp only
  refine (Within.refl _).bind fun cache => ?_
  split
  · exact .refl _
  split
  · exact .refl _
  · exact .refl _
  refine (Within.refl _).bind fun carrier => ?_
  split
  · exact .refl _
  · exact within_resolveSource howner decl h

end Steps

theorem within_resolve (h : config.Eases config') (decl : DeclId) :
    Within (resolve ⟨host, config⟩ decl) (resolve ⟨host, config'⟩ decl) := by
  unfold resolve
  generalize host.chainBound = n
  induction n generalizing decl with
  | zero => exact .refl _
  | succ n ih => exact within_resolveStep ih decl h

theorem within_companion (h : config.Eases config') (id : ElementId) :
    Within (companion ⟨host, config⟩ id) (companion ⟨host, config'⟩ id) := by
  unfold companion
  refine (Within.refl _).bind fun cache => ?_
  split
  · exact .refl _
  split
  · exact .refl _
  split
  · exact .refl _
  unfold resolveCompanion companionCandidates
  dsimp only
  generalize List.filter _ (host.members _ _) = candidates
  split
  · split
    · exact .refl _
    · exact (within_resolve h _).bind fun found => .refl _
  · exact .refl _

theorem within_enclosingElement (h : config.Eases config') (id : ElementId) :
    Within (enclosingElement ⟨host, config⟩ id) (enclosingElement ⟨host, config'⟩ id) := by
  unfold enclosingElement
  dsimp only
  refine (Within.refl _).bind fun cache => ?_
  split
  · exact .refl _
  split
  · exact .refl _
  split
  · exact .refl _
  exact (within_resolve h _).bind fun owner => .refl _

theorem within_enclosedElements (h : config.Eases config') (id : ElementId) :
    Within (enclosedElements ⟨host, config⟩ id) (enclosedElements ⟨host, config'⟩ id) := by
  unfold enclosedElements
  refine (Within.refl _).bind fun cache => ?_
  split
  · exact .refl _
  split
  · exact .refl _
  split
  · exact .refl _
  exact .foldlM (fun found d => (within_resolve h d).bind fun id => .refl _) _ _

/-- What an operation answers. -/
inductive Answer
  | declaration (found : Option DeclId)
  | element (found : Option ElementId)
  | elements (found : List ElementId)
deriving DecidableEq, Repr

/-- What a resolver does when it is asked for something. -/
def answer (r : Resolver) : Operation → ResolveM Answer
  | .resolve d => .element <$> r.resolve d
  | .metadataCarrier d => .declaration <$> r.metadataCarrier d
  | .companion id => .element <$> r.companion id
  | .enclosingElement id => .element <$> r.enclosingElement id
  | .enclosedElements id => .elements <$> r.enclosedElements id

/-- The answers to operations, one after the other. It fails at the first operation that fails. -/
def answerAll (r : Resolver) (ops : List Operation) : ResolveM (List Answer) :=
  ops.mapM r.answer

theorem within_answer (h : config.Eases config') (op : Operation) :
    Within (answer ⟨host, config⟩ op) (answer ⟨host, config'⟩ op) := by
  cases op with
  | resolve d => exact (within_resolve h d).map _
  | metadataCarrier d => exact .refl _
  | companion id => exact (within_companion h id).map _
  | enclosingElement id => exact (within_enclosingElement h id).map _
  | enclosedElements id => exact (within_enclosedElements h id).map _

/-- Where no operation fails, turning checks off changes no answer and nothing that is found
out. -/
theorem answerAll_of_eases (host : Host) {config config' : Config} (h : config.Eases config')
    {ops : List Operation} {answers : List Answer} {c : Cache}
    (hall : answerAll ⟨host, config⟩ ops {} = .ok answers c) :
    answerAll ⟨host, config'⟩ ops {} = .ok answers c :=
  Within.mapM (within_answer h) ops _ _ _ hall

private theorem answerAll_overloaded :
    answerAll ⟨(DeclTree.overloaded .overloaded).toHost, {}⟩
        [.resolve ⟨6⟩, .companion ⟨0⟩, .enclosedElements ⟨1⟩] {} =
      .ok [.element (some ⟨3⟩), .element none, .elements [⟨2⟩]]
        (Cache.overloaded.rememberCompanion ⟨0⟩ none) := by
  simp only [answerAll, List.mapM_cons, List.mapM_nil, answer]
  refine bind_eq_ok_iff.mpr ⟨.element (some ⟨3⟩), Cache.overloaded, ?_, rfl⟩
  rw [map_eq_pure_bind]
  exact bind_eq_ok_iff.mpr ⟨_, _, resolve_overloaded, rfl⟩

/-- The class with the function is checked by its name. Unchecked, it is resolved to the same. -/
theorem answerAll_overloaded_of_eases :
    Config.Eases {} ⟨"main", false, false⟩ ∧
      answerAll ⟨(DeclTree.overloaded .overloaded).toHost, {}⟩
          [.resolve ⟨6⟩, .companion ⟨0⟩, .enclosedElements ⟨1⟩] {} =
        .ok [.element (some ⟨3⟩), .element none, .elements [⟨2⟩]]
          (Cache.overloaded.rememberCompanion ⟨0⟩ none) ∧
      answerAll ⟨(DeclTree.overloaded .overloaded).toHost, ⟨"main", false, false⟩⟩
          [.resolve ⟨6⟩, .companion ⟨0⟩, .enclosedElements ⟨1⟩] {} =
        .ok [.element (some ⟨3⟩), .element none, .elements [⟨2⟩]]
          (Cache.overloaded.rememberCompanion ⟨0⟩ none) :=
  have h : Config.Eases {} ⟨"main", false, false⟩ := Config.eases_of_strict ⟨"main", false, false⟩
  ⟨h, answerAll_overloaded, answerAll_of_eases _ h answerAll_overloaded⟩

end Resolver

end Correspondence
