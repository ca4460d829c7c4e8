import Correspondence.Proofs.Runs

/-!
# Failures

Where the elements of a class or file cannot be made, none is added. A declaration that cannot be
resolved has no element afterwards.
-/

namespace Correspondence

namespace Resolver

variable {r : Resolver} {c c' : Cache} {d : DeclId}

/-- A type that is not resolved yet is resolved by its metadata. -/
theorem resolve_of_isType (linked : r.host.Linked) (acyclic : r.host.Acyclic)
    (hkind : (r.host.kind d).isType) {carrier : DeclId} (hd : c.get? d = none)
    (hcarrier : r.metadataCarrier d c = .ok (some carrier) c') :
    r.resolve d c = r.resolveType r.resolve d c' := by
  rw [resolve_eq linked acyclic]
  simp only [resolveStep, ResolveM.get_bind]
  cases hk : r.host.kind d <;> rw [hk] at hkind
  case classType | interfaceType | enumType | annotationType =>
    simp only [bind, EStateM.bind, hd, hcarrier, resolveSource, hk]
  all_goals cases hkind

theorem resolveType_of_build? {enclosing : DeclId → ResolveM (Option ElementId)}
    {build : BuildM ElementId} (hbuild : r.build? d = some build) :
    r.resolveType enclosing d = some <$> commit build := by
  unfold build? at hbuild
  unfold resolveType
  split at hbuild
  · rename_i metadata hmetadata
    obtain rfl := Option.some.inj hbuild
    simp only [hmetadata]
  · rename_i metadata hmetadata
    obtain rfl := Option.some.inj hbuild
    simp only [hmetadata]
  · cases hbuild

/-- A failure to make the elements of a class or file adds no element, no entry and no companion. -/
theorem sameElements_of_error (linked : r.host.Linked) (acyclic : r.host.Acyclic)
    (h : r.Faithful c) (hkind : (r.host.kind d).isType) {build : BuildM ElementId}
    (hbuild : r.build? d = some build) {e : ResolveError} (herror : r.resolve d c = .error e c') :
    c.SameElements c' := by
  have hd : c.get? d = none := by
    cases hd : c.get? d with
    | none => rfl
    | some id =>
      rw [resolve_eq linked acyclic, resolveStep_of_get?_eq_some hd] at herror
      cases herror
  obtain ⟨c₁, hcarrier, hsame, -⟩ := metadataCarrier_spec linked acyclic h d
  rw [acyclic.carrier_eq linked, if_pos (metadata_of_build? hbuild)] at hcarrier
  rw [resolve_of_isType linked acyclic hkind hd hcarrier,
    resolveType_of_build? hbuild, some_commit_eq] at herror
  split at herror
  · cases herror
  · obtain ⟨-, rfl⟩ := EStateM.Result.error.inj herror
    exact hsame

/-- A declaration that cannot be resolved has no element. -/
theorem get?_of_error (linked : r.host.Linked) (acyclic : r.host.Acyclic) (h : r.Faithful c)
    {e : ResolveError} (herror : r.resolve d c = .error e c') : c'.get? d = none := by
  have hagrees := agrees_resolve linked acyclic d c h
  rw [herror] at hagrees
  generalize hy : r.origin d = y at hagrees
  cases hagrees with
  | failed keeps =>
    cases hd : c'.get? d with
    | none => rfl
    | some id =>
      obtain ⟨o, ho, -⟩ := keeps.faithful.entry hd
      rw [hy] at ho
      cases ho

/-- A class or file that cannot be built leaves the elements, the entries and the companions as they
are, and no declaration that cannot be resolved has an entry afterwards. -/
theorem resolve_atomic {t : DeclTree} (built : t.Built) (acyclic : t.toHost.Acyclic)
    (config : Config) (ops : List Operation) (d : DeclId) (e : ResolveError) (c' : Cache)
    (herror : resolve ⟨t.toHost, config⟩ d (runAll ⟨t.toHost, config⟩ ops) = .error e c') :
    ((t.toHost.kind d).isType →
      (∃ m, t.toHost.metadata d = some (.ofClass m)) ∨
        (∃ m, t.toHost.metadata d = some (.fileFacade m)) →
      let c := runAll ⟨t.toHost, config⟩ ops
      c'.elements = c.elements ∧ c'.byDecl = c.byDecl ∧ c'.companions = c.companions) ∧
    c'.get? d = none := by
  have linked : t.toHost.Linked := built.linked.toHost
  have h := faithful_runAll (r := ⟨t.toHost, config⟩) linked acyclic ops
  refine ⟨fun hkind hmetadata => ?_, get?_of_error linked acyclic h herror⟩
  have hbuild : ∃ build, build? ⟨t.toHost, config⟩ d = some build := by
    rcases hmetadata with ⟨m, hm⟩ | ⟨m, hm⟩ <;> simp [build?, hm]
  obtain ⟨build, hbuild⟩ := hbuild
  have hsame := sameElements_of_error linked acyclic h hkind hbuild herror
  exact ⟨hsame.elements, hsame.byDecl, hsame.companions⟩

end Resolver

/-- The metadata of the class with the function and with one that is not compiled. -/
def ClassMetadata.uncompiled : ClassMetadata where
  strings := .ofList ["p/C", "f", "x", "kotlin/Int", "kotlin/Unit", "T", "g"]
  descriptor :=
    { qualifiedName := ⟨0⟩, kind := .regular
      functions := ClassMetadata.overloaded.descriptor.functions ++
        [{ name := ⟨6⟩, returnType := .named ⟨4⟩ }] }

namespace Resolver

set_option maxRecDepth 20000 in
private theorem resolve_uncompiled :
    resolve ⟨(DeclTree.overloaded .uncompiled).toHost, {}⟩ ⟨1⟩
        (runAll ⟨(DeclTree.overloaded .uncompiled).toHost, {}⟩ [.resolve ⟨0⟩]) =
      .error (.missingCorrespondence "p.C" "g" "g()V")
        { elements := #[.package { host := ⟨0⟩, name := "p" }], byDecl := ⟨[(⟨0⟩, ⟨0⟩)]⟩
          carriers := ⟨[(⟨1⟩, some ⟨1⟩)]⟩ } := by
  cbv

/-- The class and the function that is compiled are staged when the other function is not found. Neither
is added to the package that is there. -/
theorem resolve_atomic_uncompiled :
    let r : Resolver := ⟨(DeclTree.overloaded .uncompiled).toHost, {}⟩
    let c := r.runAll [.resolve ⟨0⟩]
    ∃ c', r.resolve ⟨1⟩ c = .error (.missingCorrespondence "p.C" "g" "g()V") c' ∧
      c'.elements = c.elements ∧ c'.byDecl = c.byDecl ∧ c'.get? ⟨1⟩ = none := by
  intro r c
  obtain ⟨hsame, hnone⟩ := resolve_atomic (DeclTree.built_overloaded .uncompiled)
    (DeclTree.acyclic_overloaded .uncompiled) {} [.resolve ⟨0⟩] ⟨1⟩ _ _ resolve_uncompiled
  obtain ⟨helements, hentries, -⟩ := hsame rfl (.inl ⟨.uncompiled, rfl⟩)
  exact ⟨_, resolve_uncompiled, helements, hentries, hnone⟩

end Resolver

end Correspondence
