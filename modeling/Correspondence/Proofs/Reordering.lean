import Correspondence.Proofs.Alike
import Correspondence.Proofs.Failure

/-!
# The order of members

In which order a host lists the members of a type makes no difference. The type is resolved in every
order or in none, the elements are numbered alike, and they differ in nothing but the order of the
siblings of their hosts.
-/

namespace Correspondence

namespace Host

/-- The host with other lists of members. -/
def withEnclosed (host : Host) (enclosed : DeclId → List DeclId) : Host :=
  { host with enclosed }

/-- The host that lists the members of one type as given. -/
def reorder (host : Host) (t : DeclId) (members : List DeclId) : Host :=
  host.withEnclosed fun d => if d = t then members else host.enclosed d

variable (host : Host) (enclosed : DeclId → List DeclId)

@[simp] theorem qualifiedName_withEnclosed (d : DeclId) :
    (host.withEnclosed enclosed).qualifiedName d = host.qualifiedName d := by
  have hwithin (n : Nat) (d : DeclId) :
      (host.withEnclosed enclosed).qualifiedNameWithin n d = host.qualifiedNameWithin n d := by
    induction n generalizing d with
    | zero => rfl
    | succ n ih => simp only [qualifiedNameWithin, ih]; rfl
  exact hwithin _ d

@[simp] theorem describe_withEnclosed (d : DeclId) :
    (host.withEnclosed enclosed).describe d = host.describe d := by
  have hwithin (n : Nat) (d : DeclId) :
      (host.withEnclosed enclosed).describeWithin n d = host.describeWithin n d := by
    induction n generalizing d with
    | zero => rfl
    | succ n ih =>
      have hfun : (host.withEnclosed enclosed).describeWithin n = host.describeWithin n := funext ih
      simp only [describeWithin, hfun, qualifiedName_withEnclosed]
      rfl
  exact hwithin _ d

variable {host enclosed}

theorem members_perm {owner : DeclId} (h : (host.enclosed owner).Perm (enclosed owner))
    (kind : DeclKind) :
    (host.members owner kind).Perm ((host.withEnclosed enclosed).members owner kind) :=
  h.filter _

end Host

/-- Whether two matches are the same but for the order of the siblings. -/
structure MemberMatch.Alike (found found' : MemberMatch) : Prop where
  host : found.host = found'.host
  overloads : found.overloads.Perm found'.overloads
  parameters : List.Forall₂ (fun p p' => p.host = p'.host ∧ p.overloads.Perm p'.overloads)
    found.parameters found'.parameters

theorem MemberMatch.Alike.hosts_perm {found found' : MemberMatch} (h : found.Alike found') :
    found.hosts.Perm found'.hosts := by
  rw [hosts, hosts, h.host]
  exact h.overloads.cons _

section

variable {enclosed : DeclId → List DeclId}

namespace MemberMatcher

variable {m : MemberMatcher} {request : MatchRequest}

/-- The matcher with other lists of members. -/
def withEnclosed (m : MemberMatcher) (enclosed : DeclId → List DeclId) : MemberMatcher :=
  { m with host := m.host.withEnclosed enclosed }

theorem candidates_perm (h : (m.host.enclosed m.owner).Perm (enclosed m.owner)) :
    m.candidates.Perm (m.withEnclosed enclosed).candidates :=
  (Host.members_perm h m.kind).map _

theorem exact_withEnclosed (h : (m.host.enclosed m.owner).Perm (enclosed m.owner))
    {matched : Candidate} (hmatched : m.exact request = .ok matched) :
    (m.withEnclosed enclosed).exact request = .ok matched := by
  have hperm := (candidates_perm h).filter (fun c => c.signature = request.signature)
  unfold MemberMatcher.exact at hmatched ⊢
  split at hmatched
  · rename_i only hone
    obtain rfl := Except.ok.inj hmatched
    rw [hone] at hperm
    rw [List.perm_singleton.mp hperm.symm]
  · cases hmatched
  · cases hmatched

theorem valueParameters_withEnclosed (enclosed : DeclId → List DeclId) (matched : Candidate) :
    (m.withEnclosed enclosed).valueParameters matched request =
      m.valueParameters matched request := by
  simp only [valueParameters, withEnclosed, Host.describe_withEnclosed]

theorem siblingParameters_perm (values : List HostParameter) {siblings siblings' : List Candidate}
    (h : siblings.Perm siblings') (position : Nat) :
    (siblingParameters values siblings position).Perm
      (siblingParameters values siblings' position) :=
  (h.flatMap_right _).filterMap _

/-- The same member is found in every order, with the same siblings. -/
theorem find_withEnclosed (h : (m.host.enclosed m.owner).Perm (enclosed m.owner))
    {found : MemberMatch} (hfound : m.find request = .ok found) :
    ∃ found', (m.withEnclosed enclosed).find request = .ok found' ∧ found.Alike found' := by
  obtain ⟨matched, hmatched, hfound⟩ := Except.bind_eq_ok_iff.mp hfound
  obtain ⟨values, hvalues, hfound⟩ := Except.bind_eq_ok_iff.mp hfound
  obtain rfl := Except.ok.inj hfound
  rw [← valueParameters_withEnclosed enclosed] at hvalues
  refine ⟨_, Except.bind_eq_ok_iff.mpr ⟨matched, exact_withEnclosed h hmatched,
    Except.bind_eq_ok_iff.mpr ⟨values, hvalues, rfl⟩⟩, ?_⟩
  have hperm := (candidates_perm h).filter (m.isSibling matched (required matched request))
  refine ⟨rfl, hperm.map _, ?_⟩
  rw [List.forall₂_iff_get]
  refine ⟨by simp, fun i hi hi' => ?_⟩
  simp only [List.get_eq_getElem, List.getElem_mapIdx]
  exact ⟨trivial, siblingParameters_perm values hperm i⟩

end MemberMatcher

namespace PropertyAssembler

variable {a : PropertyAssembler} {p : IndexedProperty}

/-- The assembler with other lists of members. -/
def withEnclosed (a : PropertyAssembler) (enclosed : DeclId → List DeclId) : PropertyAssembler :=
  { a with host := a.host.withEnclosed enclosed }

theorem unique_of_perm {a' : PropertyAssembler} {descriptor : String} {l l' : List DeclId}
    (h : l.Perm l') {found : Option DeclId} (hfound : a.unique descriptor l = .ok found) :
    a'.unique descriptor l' = .ok found := by
  rcases l with _ | ⟨x, _ | ⟨y, l⟩⟩
  · rw [List.perm_nil.mp h.symm]
    exact hfound
  · rw [List.perm_singleton.mp h.symm]
    exact hfound
  · cases hfound

theorem field_withEnclosed (h : (a.host.enclosed a.owner).Perm (enclosed a.owner))
    {found : Option DeclId} (hfound : a.field p = .ok found) :
    (a.withEnclosed enclosed).field p = .ok found :=
  unique_of_perm ((Host.members_perm h .field).filter _) hfound

theorem accessor_withEnclosed (h : (a.host.enclosed a.owner).Perm (enclosed a.owner))
    {role : AccessorRole} {found : Option DeclId} (hfound : a.accessor p role = .ok found) :
    (a.withEnclosed enclosed).accessor p role = .ok found := by
  unfold accessor at hfound ⊢
  split at hfound
  · exact hfound
  obtain ⟨only, honly, hfound⟩ := Except.bind_eq_ok_iff.mp hfound
  have hperm := Host.members_perm h .method
  refine Except.bind_eq_ok_iff.mpr ⟨only, unique_of_perm (hperm.filter _) honly, ?_⟩
  split at hfound
  · exact hfound
  · split at hfound
    · cases hfound
    · rename_i hcheck
      exact (if_neg hcheck).trans hfound

/-- A property has the same members in every order. -/
theorem assemble_withEnclosed (h : (a.host.enclosed a.owner).Perm (enclosed a.owner))
    {found : PropertyMatch} (hfound : a.assemble p = .ok found) :
    (a.withEnclosed enclosed).assemble p = .ok found := by
  obtain ⟨hname, hfield, haccessor, hempty⟩ := assemble_eq_ok_iff.mp hfound
  exact assemble_eq_ok_iff.mpr ⟨hname, field_withEnclosed h hfield,
    fun role hrole => accessor_withEnclosed h (haccessor role hrole), hempty⟩

end PropertyAssembler

namespace Container

open BuildM

variable {c : Container}

/-- The class or file with other lists of members. -/
def withEnclosed (c : Container) (enclosed : DeclId → List DeclId) : Container :=
  { c with host := c.host.withEnclosed enclosed }

theorem follows_buildTypeParameter (strings : StringTable) (decl : DeclId) (owner : ElementId)
    (x : (DeclId × TypeParameterDescriptor) × Nat) :
    Follows (c.buildTypeParameter strings decl owner x)
      ((c.withEnclosed enclosed).buildTypeParameter strings decl owner x) := by
  obtain ⟨⟨param, descriptor⟩, position⟩ := x
  refine (Follows.lift fun _ => id).bind fun name => ?_
  dsimp only
  split
  · rename_i hname
    rw [if_pos (show (c.withEnclosed enclosed).host.simpleName param = name from hname)]
    exact (Follows.push (.refl _)).bind fun id => (Follows.claim _ _ id _).bind fun _ => .pure id
  · exact .throw _ _

theorem follows_buildTypeParameters (strings : StringTable) (decl : DeclId) (owner : ElementId)
    (descriptors : List TypeParameterDescriptor) :
    Follows (c.buildTypeParameters strings decl owner descriptors)
      ((c.withEnclosed enclosed).buildTypeParameters strings decl owner descriptors) := by
  unfold buildTypeParameters
  dsimp only [withEnclosed, Host.withEnclosed]
  split
  · exact .mapM (fun x => follows_buildTypeParameter strings decl owner x) _
  · exact (Follows.lift fun _ => id).bind fun name => .throw _ _

theorem follows_buildParameters (owner : ElementId) {found found' : MemberMatch}
    (h : found.Alike found') (params : List IndexedParameter) :
    Follows (c.buildParameters owner found params)
      ((c.withEnclosed enclosed).buildParameters owner found' params) := by
  refine .mapM_forall₂ (R := fun x y => (parameterElement owner x).Alike (parameterElement owner y))
    (fun x y hxy => ?_) ?_
  · rw [buildParameter_eq, buildParameter_eq]
    exact .add _ _ hxy
  · have hparameters := h.parameters
    generalize found.parameters = l, found'.parameters = l', 0 = n at hparameters
    induction hparameters generalizing params n with
    | nil => exact .nil
    | @cons p p' l l' hp _ ih =>
      cases params with
      | nil => exact .nil
      | cons param params =>
        refine .cons ?_ (ih params (n + 1))
        obtain ⟨host, overloads⟩ := p
        obtain ⟨host', overloads'⟩ := p'
        obtain ⟨rfl, hperm⟩ := hp
        exact .parameter _ hperm

theorem follows_buildConstructor (h : (c.host.enclosed c.decl).Perm (enclosed c.decl))
    (index : DescriptorIndex) (x : IndexedConstructor × ConstructorDescriptor) :
    Follows (c.buildConstructor index x) ((c.withEnclosed enclosed).buildConstructor index x) := by
  obtain ⟨indexed, descriptor⟩ := x
  refine .lift_bind fun found hfound => ?_
  obtain ⟨found', hfound', halike⟩ :=
    MemberMatcher.find_withEnclosed (m := c.matcher .constructor index) h hfound
  refine ⟨found', hfound', ?_⟩
  have hhost : c.host.typeParameters found.host =
      (c.withEnclosed enclosed).host.typeParameters found'.host := by rw [← halike.host]; rfl
  rw [hhost]
  split
  · exact .throw _ _
  refine (Follows.push ?_).bind fun id => ?_
  · rw [← halike.host]
    exact .constructor _ halike.overloads
  refine (Follows.claimAll _ _ id halike.hosts_perm).bind fun _ => ?_
  refine (follows_buildParameters id halike _).bind fun parameters => ?_
  refine (Follows.modify id fun he => ?_).bind fun _ => .pure _
  cases he <;> constructor <;> assumption

theorem follows_buildConstructors (h : (c.host.enclosed c.decl).Perm (enclosed c.decl))
    (index : DescriptorIndex) (descriptors : List ConstructorDescriptor) :
    Follows (c.buildConstructors index descriptors)
      ((c.withEnclosed enclosed).buildConstructors index descriptors) := by
  refine (Follows.mapM (follows_buildConstructor h index) _).bind fun made => .lift fun ids => ?_
  rw [withEnclosed, Host.describe_withEnclosed]
  exact id

theorem follows_buildFunction (h : (c.host.enclosed c.decl).Perm (enclosed c.decl))
    (index : DescriptorIndex) (strings : StringTable) (x : IndexedFunction × FunctionDescriptor) :
    Follows (c.buildFunction index strings x)
      ((c.withEnclosed enclosed).buildFunction index strings x) := by
  obtain ⟨indexed, descriptor⟩ := x
  unfold buildFunction
  dsimp only
  split
  · exact .throw _ _
  refine .lift_bind fun found hfound => ?_
  obtain ⟨found', hfound', halike⟩ :=
    MemberMatcher.find_withEnclosed (m := c.matcher .method index) h hfound
  refine ⟨found', hfound', ?_⟩
  rw [← halike.host]
  refine (Follows.push (.function _ halike.overloads)).bind fun id => ?_
  refine (Follows.claimAll _ _ id halike.hosts_perm).bind fun _ => ?_
  refine (follows_buildParameters id halike _).bind fun parameters => ?_
  refine (follows_buildTypeParameters strings _ id _).bind fun typeParameters => ?_
  refine (Follows.modify id fun he => ?_).bind fun _ => .pure _
  cases he <;> constructor <;> assumption

theorem follows_buildProperty (h : (c.host.enclosed c.decl).Perm (enclosed c.decl))
    (x : IndexedProperty × PropertyDescriptor) :
    Follows (c.buildProperty x) ((c.withEnclosed enclosed).buildProperty x) := by
  obtain ⟨indexed, descriptor⟩ := x
  refine .lift_bind fun found hfound => ?_
  refine ⟨found, PropertyAssembler.assemble_withEnclosed (a := c.assembler) h hfound, ?_⟩
  exact (Follows.push (.refl _)).bind fun id => (Follows.claimAll _ _ id (.refl _)).bind
    fun _ => .pure id

theorem follows_buildEntryAt (h : (c.host.enclosed c.decl).Perm (enclosed c.decl))
    (index : DescriptorIndex) (x : String × Nat) :
    Follows (c.buildEntryAt index x) ((c.withEnclosed enclosed).buildEntryAt index x) := by
  have hperm : (c.constantsOf index x.2).Perm ((c.withEnclosed enclosed).constantsOf index x.2) :=
    (Host.members_perm h .enumConstant).filter _
  rcases hone : c.constantsOf index x.2 with _ | ⟨host, _ | ⟨other, several⟩⟩
  · simp only [buildEntryAt, buildEnumEntry, hone]
    exact .throw _ _
  · rw [hone] at hperm
    simp only [buildEntryAt, buildEnumEntry, hone, List.perm_singleton.mp hperm.symm]
    exact (Follows.push (.refl _)).bind fun id => (Follows.claim _ _ id _).bind fun _ => .pure id
  · simp only [buildEntryAt, buildEnumEntry, hone]
    exact .throw _ _

theorem follows_buildEnumEntries (h : (c.host.enclosed c.decl).Perm (enclosed c.decl))
    (index : DescriptorIndex) :
    Follows (c.buildEnumEntries index) ((c.withEnclosed enclosed).buildEnumEntries index) := by
  rw [buildEnumEntries_eq, buildEnumEntries_eq]
  exact Follows.mapM (follows_buildEntryAt h index) _

/-- The members of a class are made in every order of its compiled members. -/
theorem follows_buildTypeMembers (h : (c.host.enclosed c.decl).Perm (enclosed c.decl))
    (index : DescriptorIndex) (metadata : ClassMetadata) :
    Follows (c.buildTypeMembers index metadata)
      ((c.withEnclosed enclosed).buildTypeMembers index metadata) := by
  refine (follows_buildTypeParameters _ _ _ _).bind fun typeParameters => ?_
  refine Follows.bind ?_ fun constructors => ?_
  · unfold buildDeclaredConstructors
    split
    · exact .pure _
    · exact follows_buildConstructors h index _
  refine (Follows.mapM (follows_buildFunction h index _) _).bind fun functions => ?_
  refine (Follows.mapM (follows_buildProperty h) _).bind fun properties => ?_
  refine (follows_buildEnumEntries h index).bind fun enumEntries => ?_
  refine (Follows.modify c.owner fun he => ?_).bind fun _ => .pure _
  cases he <;> constructor <;> assumption

/-- The members of a file are made in every order of its compiled members. -/
theorem follows_buildFileMembers (h : (c.host.enclosed c.decl).Perm (enclosed c.decl))
    (index : DescriptorIndex) (metadata : PackageMetadata) :
    Follows (c.buildFileMembers index metadata)
      ((c.withEnclosed enclosed).buildFileMembers index metadata) := by
  refine (Follows.mapM (follows_buildFunction h index _) _).bind fun functions => ?_
  refine (Follows.mapM (follows_buildProperty h) _).bind fun properties => ?_
  refine (Follows.modify c.owner fun he => ?_).bind fun _ => .pure _
  cases he <;> constructor <;> assumption

end Container

namespace Building

open BuildM

variable {host : Host} {config : Config} {decl : DeclId}

theorem typeHeader_withEnclosed (h : (host.enclosed decl).Perm (enclosed decl))
    (metadata : ClassMetadata) (x : DescriptorIndex × TypeElement)
    (hx : typeHeader host config decl metadata = .ok x) :
    typeHeader (host.withEnclosed enclosed) config decl metadata = .ok x := by
  have hany : ((host.withEnclosed enclosed).enclosed decl).any
        (fun id => ((host.withEnclosed enclosed).kind id).isInitializer) =
      (host.enclosed decl).any fun id => (host.kind id).isInitializer :=
    (h.any_eq).symm
  simpa only [typeHeader, Host.qualifiedName_withEnclosed, Host.describe_withEnclosed, hany]
    using hx

theorem follows_buildType (h : (host.enclosed decl).Perm (enclosed decl))
    (metadata : ClassMetadata) :
    Follows (buildType host config decl metadata)
      (buildType (host.withEnclosed enclosed) config decl metadata) := by
  rw [buildType_eq, buildType_eq]
  refine (Follows.lift (typeHeader_withEnclosed h metadata)).bind fun x => ?_
  refine (Follows.add _ _ (.refl _)).bind fun id => ?_
  exact Container.follows_buildTypeMembers (c := ⟨host, decl, id, _⟩) h x.1 metadata

theorem follows_buildFileFacade (h : (host.enclosed decl).Perm (enclosed decl))
    (metadata : PackageMetadata) :
    Follows (buildFileFacade host config decl metadata)
      (buildFileFacade (host.withEnclosed enclosed) config decl metadata) := by
  rw [buildFileFacade_eq, buildFileFacade_eq]
  refine Follows.bind (.lift fun x hx => ?_) fun x => ?_
  · simpa only [fileHeader, Host.qualifiedName_withEnclosed, Host.describe_withEnclosed] using hx
  refine (Follows.add _ _ (.refl _)).bind fun id => ?_
  exact Container.follows_buildFileMembers (c := ⟨host, decl, id, _⟩) h x.1 metadata

end Building

end

/-- Whether two caches have the same entries, for elements that are alike. -/
structure Cache.Alike (c c' : Cache) : Prop where
  element? (id : ElementId) : Option.Rel Element.Alike (c.element? id) (c'.element? id)
  get? (d : DeclId) : c.get? d = c'.get? d
  carriers : c.carriers = c'.carriers
  companions : c.companions = c'.companions

/-- Adding batches that are alike leads to caches that are alike. -/
theorem Cache.alike_commit (c : Cache) {b b' : Batch} (h : b.Alike b') :
    (c.commit b).Alike (c.commit b') where
  element? id := by
    simp only [Cache.element?, Cache.commit, Array.getElem?_append]
    split
    · cases c.elements[id.index]? with
      | none => exact .none
      | some e => exact .some (.refl e)
    · exact h.getElem? _
  get? d := by rw [get?_commit, get?_commit, h.claims]
  carriers := rfl
  companions := rfl

namespace Resolver

/-- Whether two resolvers both fail, or both find the element with a number and leave caches that are
alike. -/
inductive AlikeResult : EStateM.Result ResolveError Cache (Option ElementId) →
    EStateM.Result ResolveError Cache (Option ElementId) → Prop
  | found (id : ElementId) {c c' : Cache} (h : c.Alike c') :
      AlikeResult (.ok (some id) c) (.ok (some id) c')
  | failed (e e' : ResolveError) (c c' : Cache) : AlikeResult (.error e c) (.error e' c')

/-- A class or file that is asked for first is built. -/
theorem resolve_of_build? {r : Resolver} {d : DeclId} (hkind : (r.host.kind d).isType)
    {build : BuildM ElementId} (hbuild : r.build? d = some build) :
    r.resolve d {} = (some <$> commit build) (({} : Cache).rememberCarrier d (some d)) := by
  have hcarrier : r.metadataCarrier d {} =
      .ok (some d) (({} : Cache).rememberCarrier d (some d)) := by
    simp [metadataCarrier, Host.chainBound, carrierWithin, metadata_of_build? hbuild, modifyGet,
      MonadStateOf.modifyGet, EStateM.modifyGet]
  unfold resolve Host.chainBound resolveWithin resolveStep
  simp only [ResolveM.get_bind]
  cases hk : r.host.kind d <;> rw [hk] at hkind
  case classType | interfaceType | enumType | annotationType =>
    simp only [Cache.get?, Lookup.find?_empty, bind, EStateM.bind, hcarrier, resolveSource, hk,
      resolveType_of_build? hbuild]
  all_goals cases hkind

/-- What builds a class or file does so in every order of its compiled members. -/
theorem follows_of_build? (host : Host) {config : Config} {d : DeclId}
    {enclosed : DeclId → List DeclId} (h : (host.enclosed d).Perm (enclosed d))
    {build : BuildM ElementId} (hbuild : build? ⟨host, config⟩ d = some build) :
    ∃ build', build? ⟨host.withEnclosed enclosed, config⟩ d = some build' ∧
      BuildM.Follows build build' := by
  unfold build? at hbuild ⊢
  dsimp only [Host.withEnclosed] at hbuild ⊢
  split at hbuild
  · obtain rfl := Option.some.inj hbuild
    exact ⟨_, rfl, Building.follows_buildType h _⟩
  · obtain rfl := Option.some.inj hbuild
    exact ⟨_, rfl, Building.follows_buildFileFacade h _⟩
  · cases hbuild

/-- In which order a type lists its members makes no difference, if it stands for a class or a
file. -/
theorem alikeResult_reorder (host : Host) (config : Config) {t : DeclId}
    (hkind : (host.kind t).isType)
    (hmetadata : (∃ m, host.metadata t = some (.ofClass m)) ∨
      ∃ m, host.metadata t = some (.fileFacade m))
    {members : List DeclId} (hperm : (host.enclosed t).Perm members) :
    AlikeResult (resolve ⟨host, config⟩ t {}) (resolve ⟨host.reorder t members, config⟩ t {}) := by
  have hperm' : (host.enclosed t).Perm ((host.reorder t members).enclosed t) := by
    simpa [Host.reorder, Host.withEnclosed] using hperm
  obtain ⟨build, hbuild⟩ : ∃ build, build? ⟨host, config⟩ t = some build := by
    rcases hmetadata with ⟨m, hm⟩ | ⟨m, hm⟩ <;> simp [build?, hm]
  obtain ⟨build', hbuild', hfollows⟩ := follows_of_build? host hperm' hbuild
  -- The first order is one of the other orders, seen from the second one.
  obtain ⟨again, hagain, hfollows'⟩ :=
    follows_of_build? (host.reorder t members) hperm'.symm hbuild'
  obtain rfl := Option.some.inj (hbuild.symm.trans hagain)
  have hresolve := resolve_of_build? (r := ⟨host.reorder t members, config⟩) hkind hbuild'
  rw [resolve_of_build? hkind hbuild, hresolve, some_commit_eq, some_commit_eq]
  generalize ({} : Cache).rememberCarrier t (some t) = c
  cases hrun : build c.begin with
  | ok p =>
    obtain ⟨id, b⟩ := p
    obtain ⟨b', hrun', halike⟩ := hfollows _ _ _ _ (.refl _) hrun
    rw [hrun']
    exact .found id (c.alike_commit halike)
  | error e =>
    cases hrun' : build' c.begin with
    | error e' => exact .failed e e' c c
    | ok p =>
      obtain ⟨b, hok, -⟩ := hfollows' _ _ _ _ (.refl _) hrun'
      rw [hrun] at hok
      cases hok

end Resolver

/-- A class with a function `f(x, y)`, of which the compiler has made `f(x)` and `f()` as well. -/
def DeclTree.reduced (metadata : ClassMetadata) : DeclTree :=
  let t := ({} : DeclTree).addPackage "p"
  let t := t.addType ⟨0⟩ .classType "C"
  let t := t.addMethod ⟨1⟩ "f" .void
  let t := t.addParameter ⟨2⟩ "x" .int
  let t := t.addParameter ⟨2⟩ "y" .int
  let t := t.addMethod ⟨1⟩ "f" .void
  let t := t.addParameter ⟨5⟩ "x" .int
  let t := t.addMethod ⟨1⟩ "f" .void
  t.attach ⟨1⟩ (.ofClass metadata)

/-- The metadata of the class with the function. -/
def ClassMetadata.reduced : ClassMetadata where
  strings := .ofList ["p/C", "f", "x", "y", "kotlin/Int", "kotlin/Unit"]
  descriptor :=
    { qualifiedName := ⟨0⟩, kind := .regular
      functions := [
        { name := ⟨1⟩
          valueParameters := [
            { name := ⟨2⟩, declaresDefault := true, type := .named ⟨4⟩ },
            { name := ⟨3⟩, declaresDefault := true, type := .named ⟨4⟩ }]
          returnType := .named ⟨5⟩ }] }

namespace Resolver

/-- What the function of the class stands for, once the class is resolved. -/
def hostFormsOfReduced (members : List DeclId) : Option (List DeclId) :=
  let host := (DeclTree.reduced .reduced).toHost.reorder ⟨1⟩ members
  ((ResolveM.after (resolve ⟨host, {}⟩ ⟨1⟩) {}).element? ⟨1⟩).map Element.hostForms

set_option maxRecDepth 20000 in
/-- The class is resolved in the order of its tree and in the opposite one. The siblings follow. -/
theorem alikeResult_reduced :
    let host := (DeclTree.reduced .reduced).toHost
    (host.kind ⟨1⟩).isType ∧ host.metadata ⟨1⟩ = some (.ofClass .reduced) ∧
      (host.enclosed ⟨1⟩).Perm [⟨7⟩, ⟨5⟩, ⟨2⟩] ∧
      AlikeResult (resolve ⟨host, {}⟩ ⟨1⟩ {})
        (resolve ⟨host.reorder ⟨1⟩ [⟨7⟩, ⟨5⟩, ⟨2⟩], {}⟩ ⟨1⟩ {}) ∧
      hostFormsOfReduced (host.enclosed ⟨1⟩) = some [⟨2⟩, ⟨5⟩, ⟨7⟩] ∧
      hostFormsOfReduced [⟨7⟩, ⟨5⟩, ⟨2⟩] = some [⟨2⟩, ⟨7⟩, ⟨5⟩] := by
  have hperm : ((DeclTree.reduced .reduced).toHost.enclosed ⟨1⟩).Perm [⟨7⟩, ⟨5⟩, ⟨2⟩] := by decide
  exact ⟨rfl, rfl, hperm, alikeResult_reorder _ {} rfl (.inl ⟨_, rfl⟩) hperm, by cbv, by cbv⟩

end Resolver

end Correspondence
