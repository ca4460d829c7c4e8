import Correspondence.Proofs.Origin

/-!
# Claims

A declaration that the batch of a class or file claims has its origin in that batch.
-/

namespace Correspondence.Resolver

variable {r : Resolver} {container d : DeclId} {place : ElementId} {b : Batch}

/-- The class or file that a batch is made for. -/
def containerOf (r : Resolver) (container : DeclId) : Container where
  host := r.host
  decl := container
  owner := ⟨0⟩
  verifyShapes := r.config.verifyAccessorShapes

/-- A batch is made by the steps for its class or file, and is complete. -/
theorem batch?_eq_some (linked : r.host.Linked) (h : r.batch? container = some b) :
    (r.host.kind container).isType ∧
      (∃ build, r.build? container = some build ∧ build { base := 0 } = .ok (⟨0⟩, b)) ∧
      (r.containerOf container).Complete b := by
  unfold batch? at h
  split at h
  · rename_i hkind
    obtain ⟨build, hbuild, h⟩ := Option.bind_eq_some_iff.mp h
    obtain ⟨⟨id, b'⟩, hok, rfl⟩ := Option.map_eq_some_iff.mp h
    have hrun := Except.toOption_eq_some_iff.mp hok
    have hmade : id = ⟨0⟩ ∧ Container.Complete
        ⟨r.host, container, id, r.config.verifyAccessorShapes⟩ b' := by
      unfold build? at hbuild
      split at hbuild
      · obtain rfl := Option.some.inj hbuild
        obtain ⟨hid, hcomplete, -⟩ := Building.buildType_ok linked hkind (by assumption) hrun
        exact ⟨hid, hcomplete⟩
      · obtain rfl := Option.some.inj hbuild
        obtain ⟨hid, hcomplete, -⟩ := Building.buildFileFacade_ok linked (by assumption) hrun
        exact ⟨hid, hcomplete⟩
      · cases hbuild
    obtain ⟨rfl, hcomplete⟩ := hmade
    exact ⟨hkind, ⟨build, hbuild, hrun⟩, hcomplete⟩
  · cases h

theorem metadata_of_build? {build : BuildM ElementId} (h : r.build? container = some build) :
    (r.host.metadata container).isSome := by
  unfold build? at h
  split at h <;> simp_all

theorem batch?_of_build? (linked : r.host.Linked) (hkind : (r.host.kind container).isType)
    {build : BuildM ElementId} (hbuild : r.build? container = some build)
    (hmade : build { base := 0 } = .ok (place, b)) : r.batch? container = some b ∧ place = ⟨0⟩ := by
  have hb : r.batch? container = some b := by simp [batch?, hkind, hbuild, hmade, Except.toOption]
  obtain ⟨-, ⟨build', hbuild', hmade'⟩, -⟩ := batch?_eq_some linked hb
  obtain rfl := Option.some.inj (hbuild.symm.trans hbuild')
  exact ⟨hb, (Prod.mk.inj (Except.ok.inj (hmade.symm.trans hmade'))).1⟩

theorem claim_of_batch? (linked : r.host.Linked) {container : DeclId} {b : Batch}
    (hb : r.batch? container = some b) : b.claims.find? container = some ⟨0⟩ := by
  obtain ⟨-, -, hcomplete⟩ := batch?_eq_some linked hb
  obtain ⟨index, constructors, functions, -, hst⟩ := hcomplete.stage
  exact hst.own

theorem sound_of_batch? (linked : r.host.Linked) {container : DeclId} {b : Batch}
    (hb : r.batch? container = some b) : b.Sound r.host container := by
  obtain ⟨-, -, hcomplete⟩ := batch?_eq_some linked hb
  obtain ⟨index, constructors, functions, -, hst⟩ := hcomplete.stage
  exact hst.sound

theorem shifts_of_build? {build : BuildM ElementId} (h : r.build? container = some build)
    (n : Nat) : BuildM.Shifts n (.shift n) build build := by
  unfold build? at h
  split at h
  · obtain rfl := Option.some.inj h
    exact Building.buildType_shifts n _
  · obtain rfl := Option.some.inj h
    exact Building.buildFileFacade_shifts n _
  · cases h

/-- Only packages have an origin without metadata around them. -/
theorem carrier_of_origin (linked : r.host.Linked) (acyclic : r.host.Acyclic) {o : Origin}
    (h : r.origin d = .ok (some o)) :
    o = .package d ∨ (r.host.carrier d).isSome := by
  rw [origin_eq linked acyclic] at h
  unfold originStep at h
  split at h
  · exact .inl (Option.some.inj (Except.ok.inj h)).symm
  · cases h
  · split at h
    · cases h
    · rename_i hcarrier
      exact .inr (by simp [hcarrier])

theorem originIn_of_claimed {enclosing : DeclId → Except ResolveError (Option Origin)}
    {unclaimed : DeclId → Origin → Except ResolveError (Option Origin)} {parent : DeclId}
    {owner o : Origin} (hparent : r.host.enclosing d = some parent)
    (howner : enclosing parent = .ok (some owner)) (hclaimed : r.claimed? d owner = some o) :
    r.originIn enclosing d unclaimed = .ok (some o) := by
  simp only [originIn, hparent, howner, bind, Except.bind, hclaimed]
  rfl

theorem originIn_of_unclaimed {enclosing : DeclId → Except ResolveError (Option Origin)}
    {unclaimed : DeclId → Origin → Except ResolveError (Option Origin)} {parent : DeclId}
    {owner : Origin} (hparent : r.host.enclosing d = some parent)
    (howner : enclosing parent = .ok (some owner)) (hclaimed : r.claimed? d owner = none) :
    r.originIn enclosing d unclaimed = unclaimed parent owner := by
  simp only [originIn, hparent, howner, bind, Except.bind, hclaimed]

theorem originStep_of_isType {enclosing : DeclId → Except ResolveError (Option Origin)}
    {carrier : DeclId} (hkind : (r.host.kind d).isType)
    (hcarrier : r.host.carrier d = some carrier) :
    r.originStep enclosing d = r.typeOrigin enclosing d := by
  cases hk : r.host.kind d <;> simp_all [originStep, sourceOrigin, DeclKind.isType]

/-- A class or file is made, or fails to be made, by its own steps. -/
theorem origin_of_build? (linked : r.host.Linked) (acyclic : r.host.Acyclic)
    (hkind : (r.host.kind container).isType) {build : BuildM ElementId}
    (hbuild : r.build? container = some build) :
    r.origin container = stagedOrigin container build := by
  have hcarrier : r.host.carrier container = some container := by
    rw [acyclic.carrier_eq linked, if_pos (metadata_of_build? hbuild)]
  rw [origin_eq linked acyclic, originStep_of_isType hkind hcarrier]
  unfold build? at hbuild
  split at hbuild
  · rename_i metadata hmetadata
    obtain rfl := Option.some.inj hbuild
    simp only [typeOrigin, hmetadata]
  · rename_i metadata hmetadata
    obtain rfl := Option.some.inj hbuild
    simp only [typeOrigin, hmetadata]
  · cases hbuild

/-- A class or file that has an origin stands for the first element of its batch. -/
theorem exists_made_of_origin (linked : r.host.Linked) (acyclic : r.host.Acyclic)
    (hkind : (r.host.kind container).isType) {build : BuildM ElementId}
    (hbuild : r.build? container = some build) {x : Option Origin}
    (horigin : r.origin container = .ok x) :
    ∃ b, build { base := 0 } = .ok (⟨0⟩, b) ∧ r.batch? container = some b ∧
      x = some (.staged container ⟨0⟩) := by
  rw [origin_of_build? linked acyclic hkind hbuild] at horigin
  obtain ⟨⟨place, b⟩, hmade, rfl⟩ := Except.map_eq_ok_iff.mp horigin
  obtain ⟨hb, rfl⟩ := batch?_of_build? linked hkind hbuild hmade
  exact ⟨b, hmade, hb, rfl⟩

/-- A declaration in something with an origin that is no package is part of the source. -/
theorem exists_carrier (linked : r.host.Linked) (acyclic : r.host.Acyclic) {owner : DeclId}
    {o : Origin} (howner : r.host.enclosing d = some owner)
    (horigin : r.origin owner = .ok (some o)) (hpackage : o ≠ .package owner) :
    ∃ x, r.host.carrier d = some x := by
  rw [acyclic.carrier_eq linked]
  split
  · exact ⟨d, rfl⟩
  · rcases carrier_of_origin linked acyclic horigin with ho | hsome
    · exact absurd ho hpackage
    · rw [howner]
      exact Option.isSome_iff_exists.mp hsome

/-- The origin of a declaration in something with an origin that is no package depends on its kind
only. -/
theorem origin_eq_sourceOrigin (linked : r.host.Linked) (acyclic : r.host.Acyclic) {owner : DeclId}
    {o : Origin} (howner : r.host.enclosing d = some owner)
    (horigin : r.origin owner = .ok (some o)) (hpackage : o ≠ .package owner)
    (hkind : r.host.kind d ≠ .package ∧ r.host.kind d ≠ .moduleDecl) :
    r.origin d = r.sourceOrigin r.origin d := by
  obtain ⟨x, hx⟩ := exists_carrier linked acyclic howner horigin hpackage
  rw [origin_eq linked acyclic]
  unfold originStep
  rw [hx]
  cases hk : r.host.kind d <;> first | rfl | simp [hk] at hkind

/-- What a batch claims has its origin there. -/
theorem origin_of_claimed (linked : r.host.Linked) (acyclic : r.host.Acyclic)
    (h : r.batch? container = some b) (hd : b.claims.find? d = some place) :
    r.origin d = .ok (some (.staged container place)) := by
  obtain ⟨-, -, hcomplete⟩ := batch?_eq_some linked h
  obtain ⟨index, constructors, functions, -, hst⟩ := hcomplete.stage
  induction d using acyclic.induction linked generalizing place with
  | step d ih =>
  rcases hst.sound.attached hd with rfl | ⟨owner, howner, ⟨j, hj⟩, hmay⟩
  · obtain rfl := Option.some.inj (hst.own.symm.trans hd)
    obtain ⟨hkind, ⟨build, hbuild, hrun⟩, -⟩ := batch?_eq_some linked h
    rw [origin_of_build? linked acyclic hkind hbuild, stagedOrigin, hrun]
    rfl
  have howner : r.host.enclosing d = some owner := howner
  have horigin := ih owner howner hj
  have hclaimed : r.claimed? d (.staged container j) = some (.staged container place) := by
    simp [claimed?, batchOf?, h, hd, Origin.target]
  have hin (unclaimed) : r.originIn r.origin d unclaimed = .ok (some (.staged container place)) :=
    originIn_of_claimed howner horigin hclaimed
  have hsource := origin_eq_sourceOrigin linked acyclic howner horigin Origin.staged_ne_package
  rcases hmay with hmember | ⟨hk, hparent⟩
  · have hmember : r.host.kind d ∈
        [.method, .constructor, .field, .enumConstant, .parameter] := hmember
    simp only [List.mem_cons, List.not_mem_nil, or_false] at hmember
    rcases hmember with hk | hk | hk | hk | hk <;>
      rw [hsource (by simp [hk])] <;> simp only [sourceOrigin, hk, hin]
  · have hk : r.host.kind d = .typeParameter := hk
    have hparent : (r.host.kind owner).isType ∨ r.host.kind owner = .method := hparent
    rw [hsource (by simp [hk])]
    simp only [sourceOrigin, hk, typeParameterOrigin, howner, hin]
    rw [if_neg]
    simpa [Classical.or_iff_not_imp_left] using hparent

/-- A method or constructor that its class or file does not claim was made by the source compiler. -/
theorem origin_of_unclaimed (linked : r.host.Linked) (acyclic : r.host.Acyclic)
    (h : r.batch? container = some b) (hd : d ∈ r.host.enclosed container)
    (hkind : r.host.kind d = .method ∨ r.host.kind d = .constructor)
    (hfree : b.claims.find? d = none) :
    r.origin d = .ok (some (.implicitIn (.staged container ⟨0⟩) d .syntheticMember)) := by
  have howner : r.host.enclosing d = some container := (linked.member hd).1
  have horigin := origin_of_claimed linked acyclic h (claim_of_batch? linked h)
  have hclaimed : r.claimed? d (.staged container ⟨0⟩) = none := by
    simp [claimed?, batchOf?, h, hfree]
  obtain ⟨-, -, hcomplete⟩ := batch?_eq_some linked h
  obtain ⟨e, he, hc, -⟩ := hcomplete.container
  have he : b.get? ⟨0⟩ = some e := he
  have hmember : r.unclaimedMember d container (.staged container ⟨0⟩) =
      .ok (some (.implicitIn (.staged container ⟨0⟩) d .syntheticMember)) := by
    simp only [unclaimedMember, element?, h, Option.bind_some, he]
    cases e <;> first | rfl | cases hc
  have hsource := origin_eq_sourceOrigin linked acyclic howner horigin Origin.staged_ne_package
  rcases hkind with hk | hk <;> rw [hsource (by simp [hk])] <;> simp only [sourceOrigin, hk] <;>
    rw [originIn_of_unclaimed howner horigin hclaimed, hmember]

/-- A parameter that is not claimed depends on where its member has its origin. -/
theorem origin_of_parameter (linked : r.host.Linked) (acyclic : r.host.Acyclic) {member : DeclId}
    {o : Origin} (hd : d ∈ r.host.parameters member) (ho : r.origin member = .ok (some o))
    (hpackage : o ≠ .package member) (hclaimed : r.claimed? d o = none) :
    r.origin d = r.unclaimedParameter d member o := by
  obtain ⟨howner, hk⟩ := linked.parameter hd
  rw [origin_eq_sourceOrigin linked acyclic howner ho hpackage (by simp [hk])]
  simp only [sourceOrigin, hk]
  exact originIn_of_unclaimed howner ho hclaimed

/-- A type parameter that is not claimed depends on where its method has its origin. -/
theorem origin_of_typeParameter (linked : r.host.Linked) (acyclic : r.host.Acyclic)
    {member : DeclId} {o : Origin} (hd : d ∈ r.host.typeParameters member)
    (hkind : r.host.kind member = .method) (ho : r.origin member = .ok (some o))
    (hpackage : o ≠ .package member) (hclaimed : r.claimed? d o = none) :
    r.origin d = r.unclaimedTypeParameter d member o := by
  obtain ⟨howner, hk⟩ := linked.typeParameter hd
  rw [origin_eq_sourceOrigin linked acyclic howner ho hpackage (by simp [hk])]
  simp only [sourceOrigin, hk, typeParameterOrigin, howner, hkind]
  exact originIn_of_unclaimed howner ho hclaimed

end Correspondence.Resolver
