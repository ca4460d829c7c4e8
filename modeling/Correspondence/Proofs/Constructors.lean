import Correspondence.Proofs.Integrity
import Correspondence.Proofs.Stability

/-!
# Constructors of classes

A class lists one constructor for each descriptor: the only primary one, then the secondary ones in
the order of their descriptors. An annotation type lists none. Where the descriptors have no primary
constructor among them, or several, the class cannot be resolved.
-/

namespace Correspondence

namespace Cache

variable {c : Cache} {owner id : ElementId} {x : IndexedConstructor × ConstructorDescriptor}

/-- Whether an element is the constructor that a class has for a descriptor. -/
def IsConstructor (c : Cache) (owner : ElementId) (x : IndexedConstructor × ConstructorDescriptor)
    (id : ElementId) : Prop :=
  ∃ f, c.element? id = some (.constructor f) ∧ f.owner = owner ∧ f.signature = x.1.signature ∧
    f.kind = x.2.kind ∧ f.visibility = x.2.visibility

theorem IsConstructor.isPrimaryConstructor (h : c.IsConstructor owner x id) :
    c.isPrimaryConstructor id = x.2.isPrimary := by
  obtain ⟨f, hf, -, -, hkind, -⟩ := h
  simp only [Cache.isPrimaryConstructor, hf, Option.bind_some, Element.constructor?, Option.any_some,
    ConstructorElement.isPrimary, hkind, ConstructorDescriptor.isPrimary]

theorem IsConstructor.isSecondaryConstructor (h : c.IsConstructor owner x id) :
    c.isSecondaryConstructor id = !x.2.isPrimary := by
  obtain ⟨f, hf, -, -, hkind, -⟩ := h
  simp only [Cache.isSecondaryConstructor, hf, Option.bind_some, Element.constructor?,
    Option.any_some, ConstructorElement.isPrimary, hkind, ConstructorDescriptor.isPrimary]

/-- The primary constructor is the first one, and the secondary ones are the others. -/
theorem head_and_tail_of_primariesFirst
    {l : List (IndexedConstructor × ConstructorDescriptor)} (hprimary : Container.HasPrimary l)
    (h : List.Forall₂ (c.IsConstructor owner) (Container.primariesFirst l) (c.constructors id)) :
    c.primaryConstructor id = (c.constructors id).head? ∧
      c.secondaryConstructors id = (c.constructors id).tail := by
  unfold primaryConstructor secondaryConstructors
  rcases hprimary with rfl | hone
  · rw [List.forall₂_nil_left_iff.mp h]
    exact ⟨rfl, rfl⟩
  obtain ⟨primary, honly⟩ := List.length_eq_one_iff.mp hone
  rw [Container.primariesFirst, honly, List.singleton_append] at h
  have hmem : primary ∈ l.filter (·.2.isPrimary) := honly ▸ List.mem_singleton_self primary
  have hflag : primary.2.isPrimary = true := (List.mem_filter.mp hmem).2
  generalize c.constructors id = ids at h
  obtain ⟨first, others, hfirst, hothers, rfl⟩ := List.forall₂_cons_left_iff.mp h
  have hsecondary : others.filter c.isSecondaryConstructor = others := by
    rw [List.filter_eq_self]
    intro j hj
    obtain ⟨x, hx, hmade⟩ := exists_of_mem_forall₂ hothers hj
    rw [hmade.isSecondaryConstructor]
    exact (List.mem_filter.mp hx).2
  constructor
  · simp [hfirst.isPrimaryConstructor, hflag]
  · simp [hfirst.isSecondaryConstructor, hflag, hsecondary]

end Cache

namespace Resolver

variable {r : Resolver} {c : Cache} {id : ElementId}

/-- A class in the cache was made by the steps for its metadata. -/
theorem Faithful.exists_buildType (h : r.Faithful c) (linked : r.host.Linked) {e : TypeElement}
    (he : c.element? id = some (.type e)) :
    ∃ metadata b n e₀, r.host.metadata e.host = some (.ofClass metadata) ∧
      (r.host.kind e.host).isType ∧
      Building.buildType r.host r.config e.host metadata { base := 0 } = .ok (⟨0⟩, b) ∧
      c.Places b n ∧ id = (⟨0⟩ : ElementId).shift n ∧ b.get? ⟨0⟩ = some (.type e₀) ∧
      Element.type e = (Element.type e₀).mapIds (.shift n) := by
  obtain ⟨container, b, n, place, e₁, hb, hplaces, rfl, he₁, hsame⟩ := h.exists_places he rfl
  obtain ⟨hkind, ⟨build, hbuild, hrun⟩, hcomplete⟩ := batch?_eq_some linked hb
  obtain ⟨e₀, rfl⟩ : ∃ e₀, e₁ = .type e₀ := by
    cases e₁ <;> cases hsame
    exact ⟨_, rfl⟩
  obtain ⟨index, constructors, functions, -, hst⟩ := hcomplete.stage
  obtain rfl : place = ⟨0⟩ := hst.accounted he₁
  obtain ⟨e₂, he₂, -, hforms, -⟩ := hcomplete.container
  obtain rfl := Option.some.inj (he₁.symm.trans he₂)
  obtain rfl : e₀.host = container := List.singleton_inj.mp hforms
  have hhost : e.host = e₀.host := by
    cases hsame
    rfl
  rw [hhost]
  unfold build? at hbuild
  split at hbuild
  · rename_i metadata hmetadata
    obtain rfl := Option.some.inj hbuild
    exact ⟨metadata, b, n, e₀, hmetadata, hkind, hrun, hplaces, rfl, he₁, hsame⟩
  · rename_i metadata hmetadata
    obtain rfl := Option.some.inj hbuild
    obtain ⟨-, -, f, hf⟩ := Building.buildFileFacade_ok linked hmetadata hrun
    cases he₁.symm.trans hf
  · cases hbuild

/-- The constructors of a class in the cache are those of its descriptors. -/
theorem Faithful.constructors (h : r.Faithful c) (linked : r.host.Linked) {e : TypeElement}
    (he : c.element? id = some (.type e)) :
    ∃ metadata index, r.host.metadata e.host = some (.ofClass metadata) ∧
      DescriptorIndex.ofClass (r.host.describe e.host) metadata = .ok index ∧
      e.kind = metadata.descriptor.kind ∧ (c.constructors id).Nodup ∧
      Container.HasPrimary (index.constructors.zip metadata.declaredConstructors) ∧
      List.Forall₂ (c.IsConstructor id)
        (Container.primariesFirst (index.constructors.zip metadata.declaredConstructors))
        (c.constructors id) := by
  obtain ⟨metadata, b, n, e₀, hmetadata, hkind, hrun, hplaces, rfl, he₀, hsame⟩ :=
    h.exists_buildType linked he
  obtain ⟨-, hcomplete, index, e₁, hindex, he₁, hsameKind, -, hprimary, hmade⟩ :=
    Building.buildType_ok linked hkind hmetadata hrun
  obtain rfl := Element.type.inj (Option.some.inj (he₀.symm.trans he₁))
  have heq := Element.type.inj hsame
  have hconstructors : c.constructors ((⟨0⟩ : ElementId).shift n) =
      e₀.constructors.map (.shift n) := by
    simp only [Cache.constructors, he, Option.bind_some, Element.type?, Option.map_some,
      Option.getD_some, heq]
  have hnodup : e₀.constructors.Nodup := (hcomplete.lists he₀).nodup .constructors
  refine ⟨metadata, index, hmetadata, hindex, ?_, ?_, hprimary, ?_⟩
  · rw [heq]
    exact hsameKind
  · rw [hconstructors]
    exact hnodup.map (ElementId.shift_injective n)
  · rw [hconstructors, List.forall₂_map_right_iff]
    refine hmade.imp fun x j ⟨found, f, hf⟩ => ?_
    refine ⟨_, hplaces.element hf.get?_eq, ?_⟩
    rw [hf.eq]
    exact ⟨rfl, rfl, rfl, rfl⟩

end Resolver

namespace Building

/-- The steps for a class up to its constructors. -/
def constructorSteps (host : Host) (config : Config) (decl : DeclId) (metadata : ClassMetadata) :
    BuildM (List (Bool × ElementId)) := do
  let (index, e) ← typeHeader host config decl metadata
  let id ← BuildM.add host (.type e)
  let c : Container := ⟨host, decl, id, config.verifyAccessorShapes⟩
  let _ ← c.buildTypeParameters metadata.strings decl id metadata.descriptor.typeParameters
  (index.constructors.zip metadata.descriptor.constructors).mapM (c.buildConstructor index)

variable {host : Host} {config : Config} {decl : DeclId} {metadata : ClassMetadata}

theorem constructorSteps_shifts (n : Nat) :
    BuildM.Shifts n (List.map fun y => (y.1, y.2.shift n))
      (constructorSteps host config decl metadata) (constructorSteps host config decl metadata) := by
  refine .lift_bind fun x hheader => ?_
  obtain ⟨index, e⟩ := x
  have hadd := BuildM.Shifts.add host (n := n) (.type e)
  rw [Element.mapIds_eq_self _ (typeHeader_ok hheader).2.2.2.2] at hadd
  refine hadd.bind fun id => ?_
  let c : Container := ⟨host, decl, id, config.verifyAccessorShapes⟩
  refine (c.buildTypeParameters_shifts n _ _ _ _).bind fun _ => ?_
  exact .mapM _ fun x _ => c.buildConstructor_shifts n index x

/-- Every constructor that is made is primary or secondary as its descriptor. -/
theorem constructorSteps_ok {b b' : Batch} {made : List (Bool × ElementId)}
    (h : constructorSteps host config decl metadata b = .ok (made, b')) :
    made.map Prod.fst = metadata.descriptor.constructors.map ConstructorDescriptor.isPrimary := by
  obtain ⟨⟨index, header⟩, b₀, hlift, h₀⟩ := BuildM.bind_eq_ok_iff.mp h
  obtain ⟨hheader, rfl⟩ := BuildM.lift_eq_ok_iff.mp hlift
  obtain ⟨id, b₁, -, h₁⟩ := BuildM.bind_eq_ok_iff.mp h₀
  obtain ⟨typeParameters, b₂, -, h₂⟩ := BuildM.bind_eq_ok_iff.mp h₁
  have hlength : index.constructors.length = metadata.descriptor.constructors.length :=
    (DescriptorIndex.madeFrom_ofClass (typeHeader_ok hheader).1).constructors.length_eq
  have hsnd : (index.constructors.zip metadata.descriptor.constructors).map Prod.snd =
      metadata.descriptor.constructors := List.map_snd_zip hlength.ge
  rw [← hsnd, List.map_map, eq_comm, ← List.forall₂_eq_eq_eq, List.forall₂_map_left_iff,
    List.forall₂_map_right_iff]
  refine (BuildM.forall₂_of_mapM_eq_ok h₂).imp fun x y ⟨b₃, b₄, hstep⟩ => ?_
  exact (Container.buildConstructor_isPrimary hstep).symm

/-- The class is not made where its constructors cannot be put in order. -/
theorem buildType_eq_error {b b' : Batch} {made : List (Bool × ElementId)}
    (hkind : metadata.descriptor.kind ≠ .annotationType)
    (h : constructorSteps host config decl metadata b = .ok (made, b')) {e : ResolveError}
    (he : Container.primaryFirst (host.describe decl) made = .error e) :
    buildType host config decl metadata b = .error e := by
  obtain ⟨⟨index, header⟩, b₀, hheader, h₀⟩ := BuildM.bind_eq_ok_iff.mp h
  obtain ⟨id, b₁, hadd, h₁⟩ := BuildM.bind_eq_ok_iff.mp h₀
  obtain ⟨typeParameters, b₂, htypes, h₂⟩ := BuildM.bind_eq_ok_iff.mp h₁
  rw [buildType_eq]
  refine BuildM.bind_eq_error_iff.mpr (.inr ⟨_, b₀, hheader, ?_⟩)
  refine BuildM.bind_eq_error_iff.mpr (.inr ⟨id, b₁, hadd, ?_⟩)
  refine BuildM.bind_eq_error_iff.mpr (.inr ⟨typeParameters, b₂, htypes, ?_⟩)
  refine BuildM.bind_eq_error_iff.mpr (.inl ?_)
  rw [Container.buildDeclaredConstructors, if_neg hkind]
  refine BuildM.bind_eq_error_iff.mpr (.inr ⟨made, b', h₂, ?_⟩)
  exact BuildM.lift_eq_error_iff.mpr he

/-- Constructors of which not exactly one is primary cannot be put in order. -/
theorem buildType_eq_error_of_primaries {b b' : Batch} {made : List (Bool × ElementId)}
    (hkind : metadata.descriptor.kind ≠ .annotationType)
    (hsome : metadata.descriptor.constructors ≠ [])
    (hprimary : (metadata.descriptor.constructors.filter (·.isPrimary)).length ≠ 1)
    (h : constructorSteps host config decl metadata b = .ok (made, b')) :
    buildType host config decl metadata b = .error (.primaryConstructorOrder (host.describe decl)
      (if metadata.descriptor.constructors.filter (·.isPrimary) = [] then .noPrimary
        else .severalPrimaries)) := by
  have hflags := constructorSteps_ok h
  have hcount : (made.filter Prod.fst).length =
      (metadata.descriptor.constructors.filter (·.isPrimary)).length := by
    rw [← List.countP_eq_length_filter, ← List.countP_eq_length_filter]
    simpa [List.countP_map, Function.comp_def] using congrArg (List.countP id) hflags
  have hmade : made ≠ [] := by
    rintro rfl
    exact hsome (List.map_eq_nil_iff.mp hflags.symm)
  apply buildType_eq_error hkind h
  rw [Container.primaryFirst_eq, if_neg (not_or.mpr ⟨hmade, hcount ▸ hprimary⟩)]
  simp only [← List.length_eq_zero_iff, hcount]

end Building

namespace Resolver

/-- In every cache that operations lead to, a class has no constructors if it is an annotation type.
Otherwise it has one for each descriptor: the only primary one, if there is any, then the secondary
ones in order. The first one is the primary constructor and the others are the secondary ones. Where
the constructors themselves can be made, but not exactly one of them is primary, the class cannot be
resolved. -/
theorem constructors_runAll {t : DeclTree} (built : t.Built) (acyclic : t.toHost.Acyclic)
    (config : Config) (ops : List Operation) :
    let r : Resolver := ⟨t.toHost, config⟩
    let c := r.runAll ops
    (∀ id e, c.element? id = some (.type e) →
      ∃ metadata index, r.host.metadata e.host = some (.ofClass metadata) ∧
        DescriptorIndex.ofClass (r.host.describe e.host) metadata = .ok index ∧
        e.kind = metadata.descriptor.kind ∧
        (e.kind = .annotationType → c.constructors id = []) ∧
        (e.kind ≠ .annotationType →
          let l := index.constructors.zip metadata.descriptor.constructors
          l.map Prod.snd = metadata.descriptor.constructors ∧ Container.HasPrimary l ∧
            List.Forall₂ (c.IsConstructor id) (Container.primariesFirst l) (c.constructors id)) ∧
        (c.constructors id).Nodup ∧
        c.primaryConstructor id = (c.constructors id).head? ∧
        c.secondaryConstructors id = (c.constructors id).tail) ∧
    ∀ decl metadata made b, (r.host.kind decl).isType →
      r.host.metadata decl = some (.ofClass metadata) →
      metadata.descriptor.kind ≠ .annotationType → metadata.descriptor.constructors ≠ [] →
      (metadata.descriptor.constructors.filter (·.isPrimary)).length ≠ 1 →
      Building.constructorSteps r.host r.config decl metadata c.begin = .ok (made, b) →
      ∃ c', r.resolve decl c = .error (.primaryConstructorOrder (r.host.describe decl)
        (if metadata.descriptor.constructors.filter (·.isPrimary) = [] then .noPrimary
          else .severalPrimaries)) c' := by
  intro r c
  have linked : r.host.Linked := built.linked.toHost
  have h : r.Faithful c := faithful_runAll linked acyclic ops
  refine ⟨fun id e he => ?_, fun decl metadata made b htype hmetadata hkind hsome hprimary hsteps => ?_⟩
  · obtain ⟨metadata, index, hmetadata, hindex, hkind, hnodup, hprimary, hmade⟩ :=
      h.constructors linked he
    obtain ⟨hhead, htail⟩ := Cache.head_and_tail_of_primariesFirst hprimary hmade
    refine ⟨metadata, index, hmetadata, hindex, hkind, fun hannotation => ?_, fun hother => ?_,
      hnodup, hhead, htail⟩
    · rw [ClassMetadata.declaredConstructors, if_pos (hkind ▸ hannotation), List.zip_nil_right]
        at hmade
      exact List.forall₂_nil_left_iff.mp hmade
    · have hdeclared : metadata.declaredConstructors = metadata.descriptor.constructors :=
        if_neg (hkind ▸ hother)
      have hlength : index.constructors.length = metadata.descriptor.constructors.length :=
        (DescriptorIndex.madeFrom_ofClass hindex).constructors.length_eq
      exact ⟨List.map_snd_zip hlength.ge, hdeclared ▸ hprimary, hdeclared ▸ hmade⟩
  · rw [Cache.begin, ← Batch.shift_empty] at hsteps
    obtain ⟨made₀, b₀, hsteps₀⟩ := (Building.constructorSteps_shifts c.size).exists_eq_ok hsteps
    have hfails := Building.buildType_eq_error_of_primaries hkind hsome hprimary hsteps₀
    have hbuild : r.build? decl = some (Building.buildType r.host r.config decl metadata) := by
      simp only [build?, hmetadata]
    apply h.resolve_of_origin_error linked acyclic
    rw [origin_of_build? linked acyclic htype hbuild, stagedOrigin, hfails]
    rfl

end Resolver

/-- The metadata of a class with the constructors `C(x: Int)`, `C()` and `C(x: Long)`, of which the
last one is secondary. -/
def ClassMetadata.constructed (first second : ConstructorKind) : ClassMetadata where
  strings := .ofList ["p/C", "x", "kotlin/Int", "kotlin/Long"]
  descriptor :=
    { qualifiedName := ⟨0⟩, kind := .regular
      constructors := [
        { kind := first, valueParameters := [{ name := ⟨1⟩, type := .named ⟨2⟩ }] },
        { kind := second },
        { kind := .secondary, valueParameters := [{ name := ⟨1⟩, type := .named ⟨3⟩ }] }] }

namespace DeclTree

/-- The class with the constructors. -/
def constructed (first second : ConstructorKind) : DeclTree :=
  let t := ({} : DeclTree).addPackage "p"
  let t := t.addType ⟨0⟩ .classType "C"
  let t := t.addConstructor ⟨1⟩
  let t := t.addParameter ⟨2⟩ "x" .int
  let t := t.addConstructor ⟨1⟩
  let t := t.addConstructor ⟨1⟩
  let t := t.addParameter ⟨5⟩ "x" .long
  t.attach ⟨1⟩ (.ofClass (.constructed first second))

theorem built_constructed (first second : ConstructorKind) : (constructed first second).Built := by
  apply Built.attach
  iterate 7 apply Built.add
  exact .empty

theorem acyclic_constructed (first second : ConstructorKind) :
    (constructed first second).toHost.Acyclic :=
  acyclic_of_isAscending rfl

end DeclTree

namespace Resolver

/-- The resolver for the class with the constructors. -/
def ofConstructed (first second : ConstructorKind) : Resolver :=
  ⟨(DeclTree.constructed first second).toHost, {}⟩

set_option maxRecDepth 20000 in
private theorem listed_constructed :
    ((((ofConstructed .secondary .primary).runAll [.resolve ⟨1⟩]).element? ⟨0⟩).bind
      Element.type?).map TypeElement.constructors = some [⟨3⟩, ⟨1⟩, ⟨4⟩] := by
  cbv

set_option maxRecDepth 20000 in
private theorem isOk_constructorSteps (kind : ConstructorKind) :
    (Building.constructorSteps (ofConstructed kind kind).host {} ⟨1⟩ (.constructed kind kind)
      { base := 0 }).isOk = true := by
  cases kind <;> cbv

/-- The primary constructor comes first although its descriptor is the second one. With two primary
constructors, or with none, the class is not resolved. -/
theorem constructors_constructed :
    let c := (ofConstructed .secondary .primary).runAll [.resolve ⟨1⟩]
    c.primaryConstructor ⟨0⟩ = some ⟨3⟩ ∧ c.secondaryConstructors ⟨0⟩ = [⟨1⟩, ⟨4⟩] ∧
      (∃ c', (ofConstructed .secondary .secondary).resolve ⟨1⟩ {} =
        .error (.primaryConstructorOrder "p.C" .noPrimary) c') ∧
      ∃ c', (ofConstructed .primary .primary).resolve ⟨1⟩ {} =
        .error (.primaryConstructorOrder "p.C" .severalPrimaries) c' := by
  intro c
  have hall (first second : ConstructorKind) := constructors_runAll
    (DeclTree.built_constructed first second) (DeclTree.acyclic_constructed first second) {}
  have hfails (kind : ConstructorKind) : ∃ c', (ofConstructed kind kind).resolve ⟨1⟩ {} =
      .error (.primaryConstructorOrder "p.C"
        (if kind = .primary then .severalPrimaries else .noPrimary)) c' := by
    obtain ⟨-, hfails⟩ := hall kind kind []
    have hok := isOk_constructorSteps kind
    cases hsteps : Building.constructorSteps (ofConstructed kind kind).host {} ⟨1⟩
      (.constructed kind kind) { base := 0 } with
    | error e => rw [hsteps] at hok; cases hok
    | ok p =>
      have h := hfails ⟨1⟩ (.constructed kind kind) p.1 p.2 rfl rfl nofun nofun
        (by cases kind <;> decide) hsteps
      cases kind <;> exact h
  obtain ⟨t, ht, hlist⟩ := Option.map_eq_some_iff.mp listed_constructed
  obtain ⟨e, he, htype⟩ := Option.bind_eq_some_iff.mp ht
  obtain rfl : e = .type t := by
    cases e <;> cases htype
    rfl
  obtain ⟨hclass, -⟩ := hall .secondary .primary [.resolve ⟨1⟩]
  obtain ⟨metadata, index, -, -, -, -, -, -, hhead, htail⟩ := hclass ⟨0⟩ t he
  have hconstructors : c.constructors ⟨0⟩ = [⟨3⟩, ⟨1⟩, ⟨4⟩] := by
    rw [Cache.constructors, listed_constructed, Option.getD_some]
  refine ⟨hhead.trans ?_, htail.trans ?_, hfails .secondary, hfails .primary⟩
  · exact congrArg List.head? hconstructors
  · exact congrArg List.tail hconstructors

end Resolver

end Correspondence
