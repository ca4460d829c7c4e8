import Correspondence.Fixture.Basic
import Correspondence.Proofs.Indexing
import Correspondence.Proofs.Lists
import Mathlib.Data.List.Nodup
import Mathlib.Data.List.ReduceOption

/-!
# Paths of fixtures

A fixture gives a path to every declaration when it adds it, below a declaration that it has added before. So
its paths are in the order of the declarations, no two declarations share one, and what encloses a
declaration comes before it and lists it.
-/

namespace Correspondence.Fixture

/-- Whether every declaration has a path of its own, and comes after the one that encloses it. -/
structure IsIndexed (f : Fixture) : Prop where
  built : f.tree.Built
  decls : f.paths.map Prod.snd = f.tree.ids
  nodup : (f.paths.map Prod.fst).Nodup
  after {x owner : DeclId} : f.tree.toHost.enclosing x = some owner → owner.index < x.index

theorem isIndexed_empty : IsIndexed {} where
  built := .empty
  decls := rfl
  nodup := .nil
  after h := by simp [DeclTree.toHost, DeclTree.get?] at h

variable {f f' : Fixture}

theorem decl?_eq_none_iff {path : String} : f.decl? path = none ↔ path ∉ f.paths.map Prod.fst := by
  rw [decl?, List.lookup_eq_none_iff]
  simp only [bne_iff_ne, ne_eq, List.mem_map, not_exists, not_and, @eq_comm _ path]

theorem IsIndexed.add (h : f.IsIndexed) {enclosing : Option DeclId}
    (hknown : ∀ owner ∈ enclosing, owner ∈ f.tree.ids) {path : String} (hpath : f.decl? path = none)
    (kind : DeclKind) (name : String) (type : Option JvmType) :
    IsIndexed { tree := f.tree.add enclosing kind name type,
                paths := f.paths ++ [(path, f.tree.next)] } where
  built := h.built.add enclosing kind name type
  decls := by simp [DeclTree.ids_add, h.decls]
  nodup := by
    rw [List.map_append, List.map_singleton, ← List.concat_eq_append]
    exact h.nodup.concat (decl?_eq_none_iff.mp hpath)
  after := by
    intro x owner hx
    rw [DeclTree.enclosing_add] at hx
    split at hx
    · rename_i hnext
      rw [hnext]
      exact DeclTree.mem_ids.mp (hknown owner hx)
    · exact h.after hx

theorem IsIndexed.attach (h : f.IsIndexed) (id : DeclId) (metadata : Metadata) :
    IsIndexed { f with tree := f.tree.attach id metadata } where
  built := h.built.attach id metadata
  decls := by rw [DeclTree.ids_attach, h.decls]
  nodup := h.nodup
  after := by
    intro x owner hx
    rw [DeclTree.enclosing_attach] at hx
    exact h.after hx

namespace LoadM

variable {α β : Type} {below : Option DeclId}

/-- Whether steps keep fixtures indexed that know the declaration below which the steps add others. -/
def Keeps (below : Option DeclId) (x : LoadM α) : Prop :=
  ∀ f a f', f.IsIndexed → (∀ owner ∈ below, owner ∈ f.tree.ids) → x f = .ok (a, f') →
    f'.IsIndexed ∧ f.tree.ids ⊆ f'.tree.ids

theorem Keeps.pure (a : α) : Keeps below (pure a : LoadM α) := by
  intro f b f' h _ hrun
  obtain ⟨-, rfl⟩ := StateT.pure_eq_ok_iff.mp hrun
  exact ⟨h, List.Subset.refl _⟩

theorem Keeps.throw (e : Error) : Keeps below (throw e : LoadM α) := by
  intro f b f' _ _ hrun
  cases hrun

theorem Keeps.bind {x : LoadM α} {k : α → LoadM β} (hx : Keeps below x) (hk : ∀ a, Keeps below (k a)) :
    Keeps below (x >>= k) := by
  intro f b f'' h hknown hrun
  obtain ⟨a, f', ha, hb⟩ := StateT.bind_eq_ok_iff.mp hrun
  obtain ⟨h', hsub⟩ := hx f a f' h hknown ha
  obtain ⟨h'', hsub'⟩ := hk a f' b f'' h' (fun owner howner => hsub (hknown owner howner)) hb
  exact ⟨h'', List.Subset.trans hsub hsub'⟩

theorem Keeps.forM {k : α → LoadM Unit} (hk : ∀ a, Keeps below (k a)) (l : List α) :
    Keeps below (l.forM k) := by
  induction l with
  | nil => exact .pure ()
  | cons a l ih => exact (hk a).bind fun _ => ih

theorem Keeps.located (place : Place) (result : Except Cause α) : Keeps below (located place result) := by
  cases result with
  | ok a => exact .pure a
  | error cause => exact .throw _

theorem declare_eq_ok {path : String} {add : DeclTree → DeclTree} {id : DeclId}
    (h : LoadM.declare path add f = .ok (id, f')) : f.decl? path = none ∧ id = f.tree.next ∧
      f' = { tree := add f.tree, paths := f.paths ++ [(path, f.tree.next)] } := by
  unfold LoadM.declare at h
  cases hpath : f.decl? path with
  | some other => simp [hpath] at h
  | none =>
    simp only [hpath, Except.ok.injEq, Prod.mk.injEq] at h
    exact ⟨rfl, h.1.symm, h.2.symm⟩

/-- What is added is known to the steps after it. -/
theorem Keeps.declare {path : String} {kind : DeclKind} {name : String} {type : Option JvmType}
    {k : DeclId → LoadM α} (hk : ∀ id, Keeps (some id) (k id)) :
    Keeps below (LoadM.declare path (·.add below kind name type) >>= k) := by
  intro f a f'' h hknown hrun
  obtain ⟨id, f', hdeclare, hrest⟩ := StateT.bind_eq_ok_iff.mp hrun
  obtain ⟨hpath, rfl, rfl⟩ := declare_eq_ok hdeclare
  have hids : (f.tree.add below kind name type).ids = f.tree.ids ++ [f.tree.next] :=
    f.tree.ids_add below kind name type
  obtain ⟨h'', hsub⟩ := hk _ _ a f'' (h.add hknown hpath kind name type) (by simp [hids]) hrest
  refine ⟨h'', ?_⟩
  intro x hx
  apply hsub
  simp [hids, hx]

/-! ## Members -/

theorem keeps_addTypeParameters (owner : DeclId) (path : String) (names : List String) :
    Keeps (some owner) (addTypeParameters owner path names) := by
  apply Keeps.forM
  intro name
  exact Keeps.declare fun _ => .pure _

theorem keeps_addField (owner : DeclId) (path : String) (spec : FieldSpec) :
    Keeps (some owner) (addField owner path spec) := by
  apply (Keeps.located _ _).bind
  intro type
  exact Keeps.declare fun _ => .pure _

theorem keeps_addEnumConstant (owner : DeclId) (path name : String) :
    Keeps (some owner) (addEnumConstant owner path name) :=
  Keeps.declare fun _ => .pure _

theorem keeps_addParameter (owner : DeclId) (path : String) (parameter : String × JvmType) :
    Keeps (some owner) (addParameter owner path parameter) :=
  Keeps.declare fun _ => .pure _

theorem keeps_addInitializer (owner : DeclId) (path : String) (position : Nat) :
    Keeps (some owner) (addInitializer owner path position) :=
  Keeps.declare fun _ => .pure _

theorem keeps_executableTypes (path : String) (spec : ExecutableSpec) :
    Keeps below (executableTypes path spec) := by
  apply (Keeps.located _ _).bind
  intro read
  cases read
  dsimp only
  split
  · exact .throw _
  · exact .pure _

theorem keeps_addExecutableParts (id : DeclId) (path : String) (spec : ExecutableSpec)
    (types : List JvmType) : Keeps (some id) (addExecutableParts id path spec types) := by
  apply (keeps_addTypeParameters id path spec.typeParams).bind
  intro _
  exact Keeps.forM (keeps_addParameter id path) _

theorem keeps_addConstructor (owner : DeclId) (path : String) (spec : ExecutableSpec) :
    Keeps (some owner) (addConstructor owner path spec) := by
  apply (keeps_executableTypes path spec).bind
  intro types
  apply Keeps.declare
  intro id
  exact keeps_addExecutableParts id _ spec _

theorem keeps_addMethod (owner : DeclId) (path : String) (spec : ExecutableSpec) :
    Keeps (some owner) (addMethod owner path spec) := by
  apply (keeps_executableTypes path spec).bind
  intro types
  cases spec.name with
  | none => exact .throw _
  | some name =>
    apply Keeps.declare
    intro id
    exact keeps_addExecutableParts id _ spec _

theorem keeps_attachMetadata (id : DeclId) (path : String) (spec : TypeSpec) :
    Keeps below (attachMetadata id path spec) := by
  apply (Keeps.located _ _).bind
  intro metadata
  cases metadata with
  | none => exact .pure _
  | some metadata =>
    intro f a f' h _ hrun
    obtain ⟨_, _, hget, hrun⟩ := StateT.bind_eq_ok_iff.mp hrun
    obtain ⟨rfl, rfl⟩ := Prod.mk.inj (Except.ok.inj hget)
    rcases hattach : f.tree.attachMetadata id metadata with ⟨known, tree⟩
    rw [hattach] at hrun
    have htree : f.tree.attach id metadata = tree := congrArg Prod.snd hattach
    cases known with
    | true =>
      obtain ⟨-, rfl⟩ := Prod.mk.inj (Except.ok.inj hrun)
      refine ⟨htree ▸ h.attach id metadata, ?_⟩
      rw [← htree, DeclTree.ids_attach]
      exact List.Subset.refl _
    | false => cases hrun

/-! ## Types and packages -/

mutual
theorem keeps_addType (enclosing : DeclId) (outer : String) : ∀ spec : TypeSpec,
    Keeps (some enclosing) (addType enclosing outer spec)
  | .mk name kind typeParams fields enumConstants constructors methods initializers types ofClass
      facade isSynthetic multiFileParts => by
    rw [addType]
    apply Keeps.declare
    intro id
    -- All that the type contains is added below it, and it is known by then.
    apply (keeps_addTypeParameters id _ typeParams).bind
    intro _
    apply (Keeps.forM (keeps_addField id _) fields).bind
    intro _
    apply (Keeps.forM (keeps_addEnumConstant id _) enumConstants).bind
    intro _
    apply (Keeps.forM (keeps_addConstructor id _) constructors).bind
    intro _
    apply (Keeps.forM (keeps_addMethod id _) methods).bind
    intro _
    apply (Keeps.forM (keeps_addInitializer id _) _).bind
    intro _
    apply (keeps_addTypes id _ types).bind
    intro _
    exact keeps_attachMetadata id _ _
theorem keeps_addTypes (enclosing : DeclId) (outer : String) : ∀ specs : List TypeSpec,
    Keeps (some enclosing) (addTypes enclosing outer specs)
  | [] => by
    rw [addTypes]
    exact .pure _
  | spec :: rest => by
    rw [addTypes]
    apply (keeps_addType enclosing outer spec).bind
    intro _
    exact keeps_addTypes enclosing outer rest
end

theorem keeps_addPackage (spec : PackageSpec) : Keeps none (addPackage spec) := by
  apply Keeps.declare
  intro id
  exact keeps_addTypes id spec.name spec.types

end LoadM

theorem isIndexed_of_load {document : Document} (h : load document = .ok f) : f.IsIndexed := by
  obtain ⟨⟨⟨⟩, loaded⟩, hrun, hload⟩ := Except.bind_eq_ok_iff.mp h
  obtain rfl := Except.ok.inj hload
  have hkeeps := LoadM.Keeps.forM LoadM.keeps_addPackage document.packages
  exact (hkeeps {} () loaded isIndexed_empty (by simp) hrun).1

/-! ## Paths and declarations -/

/-- The path of a declaration. -/
def pathOf (f : Fixture) (x : DeclId) : String :=
  ((f.paths[x.index]?).map Prod.fst).getD ""

/-- Resolves a declaration, and answers it with its element if it is part of the source. A failure names the
path of the declaration. -/
def visit (f : Fixture) (r : Resolver) (x : DeclId) : EStateM Error Cache (Option (DeclId × ElementId)) :=
  Option.map (x, ·) <$>
    EStateM.adaptExcept (fun e => ⟨some (.resolving (f.pathOf x)), .resolve e⟩) (r.resolve x)

theorem IsIndexed.length_paths (h : f.IsIndexed) : f.paths.length = f.tree.size := by
  have hlength := congrArg List.length h.decls
  simpa [DeclTree.ids] using hlength

theorem IsIndexed.getElem_paths (h : f.IsIndexed) {i : Nat} (hi : i < f.paths.length) :
    f.paths[i].2 = ⟨i⟩ := by
  have hentry : (f.paths.map Prod.snd)[i]? = some f.paths[i].2 := by simp [hi]
  rw [h.decls, DeclTree.ids] at hentry
  have hsize : i < f.tree.size := h.length_paths ▸ hi
  simpa [hsize] using hentry.symm

theorem IsIndexed.paths_eq (h : f.IsIndexed) : f.paths = f.tree.ids.map fun x => (f.pathOf x, x) := by
  apply List.ext_getElem
  · simp [h.length_paths, DeclTree.ids]
  · intro i hi hi'
    have hpath : f.paths[i].1 = f.pathOf ⟨i⟩ := by simp [pathOf, hi]
    have hentry : f.paths[i] = (f.pathOf ⟨i⟩, ⟨i⟩) := Prod.ext hpath (h.getElem_paths hi)
    rw [hentry]
    simp [DeclTree.ids]

theorem IsIndexed.decl?_eq_some_iff (h : f.IsIndexed) {path : String} {x : DeclId} :
    f.decl? path = some x ↔ (path, x) ∈ f.paths := by
  rw [decl?, List.lookup_eq_some_iff]
  constructor
  · intro hfound
    obtain ⟨before, after, heq, -⟩ := hfound
    simp [heq]
  · intro hmem
    obtain ⟨before, after, heq⟩ := List.append_of_mem hmem
    refine ⟨before, after, heq, ?_⟩
    intro entry hentry
    have hnodup := h.nodup
    rw [heq, List.map_append, List.nodup_append] at hnodup
    have hne := hnodup.2.2 entry.1 (List.mem_map_of_mem hentry) path (by simp)
    simpa using hne.symm

/-- A declaration is found by its path, and by no other one. -/
theorem IsIndexed.decl_eq_ok_iff (h : f.IsIndexed) {path : String} {x : DeclId} :
    f.decl path = .ok x ↔ x ∈ f.tree.ids ∧ path = f.pathOf x := by
  have hfound : f.decl path = .ok x ↔ f.decl? path = some x := by
    unfold decl
    cases f.decl? path <;> simp
  rw [hfound, h.decl?_eq_some_iff, h.paths_eq]
  simp only [List.mem_map, Prod.mk.injEq]
  constructor
  · intro hmem
    obtain ⟨y, hy, hpath, rfl⟩ := hmem
    exact ⟨hy, hpath.symm⟩
  · intro hx
    exact ⟨x, hx.1, hx.2.symm, rfl⟩

theorem resolvePaths_eq (r : Resolver) (ids : List DeclId) :
    resolvePaths r (ids.map fun x => (f.pathOf x, x)) = List.reduceOption <$> ids.mapM (f.visit r) := by
  induction ids with
  | nil => rfl
  | cons x ids ih =>
    rw [List.map_cons, resolvePaths, ih, List.mapM_cons, visit]
    simp only [map_eq_pure_bind, bind_assoc, pure_bind]
    congr 1
    funext found
    congr 1
    funext others
    cases found <;> rfl

/-- What is no root stands in a list of what encloses it, which comes before it. -/
theorem IsIndexed.exists_owner (h : f.IsIndexed) {x : DeclId} (hx : x ∈ f.tree.ids)
    (hroot : x ∉ f.tree.roots) : ∃ owner ∈ f.tree.ids, f.tree.toHost.enclosing x = some owner ∧
      owner.index < x.index ∧ x ∈ f.tree.toHost.listed owner (f.tree.toHost.kind x).list := by
  rw [h.built.roots_eq, List.mem_filter, Option.isNone_iff_eq_none] at hroot
  cases henclosing : f.tree.toHost.enclosing x with
  | none => exact absurd ⟨hx, henclosing⟩ hroot
  | some owner =>
    have hlt := h.after henclosing
    have hsize := DeclTree.mem_ids.mp hx
    have howner : owner ∈ f.tree.ids := DeclTree.mem_ids.mpr (by omega)
    exact ⟨owner, howner, rfl, hlt, h.built.mem_listed henclosing (Nat.le_of_lt hlt)⟩

/-- In a fixture that loads, the paths stand in the order of the declarations, each declaration is found by one
path, and what encloses a declaration comes before it and lists it. So all declarations are resolved once,
each one after those that enclose it. -/
theorem paths_load {document : Document} {f : Fixture} (h : load document = .ok f) :
    f.paths.length = f.tree.size ∧
    (∀ i (hi : i < f.paths.length), f.paths[i].2 = ⟨i⟩) ∧
    (f.paths.map Prod.fst).Nodup ∧
    (∀ x ∈ f.tree.ids, x ∉ f.tree.roots → ∃ owner ∈ f.tree.ids,
      f.tree.toHost.enclosing x = some owner ∧ owner.index < x.index ∧
      x ∈ f.tree.toHost.listed owner (f.tree.toHost.kind x).list) ∧
    (∀ path x, f.decl path = .ok x ↔ x ∈ f.tree.ids ∧ path = f.pathOf x) ∧
    (∀ r, f.resolveAll r = List.reduceOption <$> f.tree.ids.mapM (f.visit r)) ∧
    ∀ before x after, f.tree.ids = before ++ x :: after → x ∉ before ∧ x ∉ after ∧
      ∀ owner, f.tree.toHost.enclosing x = some owner → owner ∈ before := by
  have hindexed := isIndexed_of_load h
  refine ⟨hindexed.length_paths, fun i => hindexed.getElem_paths, hindexed.nodup,
    fun x => hindexed.exists_owner, fun path x => hindexed.decl_eq_ok_iff, ?_, ?_⟩
  · intro r
    rw [resolveAll, hindexed.paths_eq]
    exact resolvePaths_eq r f.tree.ids
  · intro before x after hids
    refine ⟨?_, ?_, ?_⟩
    · intro hx
      exact Nat.lt_irrefl _ ((DeclTree.mem_before_iff hids).mp hx)
    · intro hx
      exact Nat.lt_irrefl _ (DeclTree.lt_of_mem_after hids hx)
    · intro owner howner
      exact (DeclTree.mem_before_iff hids).mpr (hindexed.after howner)

/-- A class with a member of every kind, and a class in it. -/
def shop : Document where
  packages := [{
    name := "shop"
    types := [.mk "Cart" .classType ["T"] [{ name := "size", type := "I" }] ["EMPTY"]
      [{ descriptor := "(I)V", params := ["size"] }]
      [{ name := some "add", descriptor := "(Ljava/lang/String;I)V", params := ["sku", "count"],
         typeParams := ["R"] }]
      1 [.mk "Item" .classType [] [] [] [] [] 0 [] none none true []]
      (some { name := "shop/Cart", kind := .regular, typeParams := ["T"] }) none false []] }]

/-- A parameter of the method has one path, and is resolved after the method. -/
theorem paths_shop : ∃ f, load shop = .ok f ∧ f.paths.length = f.tree.size ∧
    (∀ path, f.decl path = .ok ⟨9⟩ ↔ path = "shop.Cart#add(Ljava/lang/String;I)V/sku") ∧
    ∃ owner ∈ f.tree.ids.take 9, f.tree.toHost.enclosing ⟨9⟩ = some owner := by
  have hloads : (load shop).toOption.isSome := by decide +kernel
  have hpath : (load shop).toOption.all (fun f =>
      f.decl "shop.Cart#add(Ljava/lang/String;I)V/sku" = .ok ⟨9⟩) := by decide +kernel
  have hroots : (load shop).toOption.all (fun f => ⟨9⟩ ∉ f.tree.roots) := by decide +kernel
  have hids : (load shop).toOption.all (fun f =>
      f.tree.ids = f.tree.ids.take 9 ++ ⟨9⟩ :: f.tree.ids.drop 10) := by decide +kernel
  obtain ⟨f, hf⟩ := Option.isSome_iff_exists.mp hloads
  simp only [hf, Option.all_some, decide_eq_true_eq] at hpath hroots hids
  have hload := Except.toOption_eq_some_iff.mp hf
  obtain ⟨hlength, -, -, howner, hdecl, -, hvisits⟩ := paths_load hload
  have hsku := (hdecl _ _).mp hpath
  refine ⟨f, hload, hlength, ?_, ?_⟩
  · intro path
    rw [hdecl, hsku.2]
    simp [hsku.1]
  · obtain ⟨owner, -, henclosing, -⟩ := howner ⟨9⟩ hsku.1 hroots
    exact ⟨owner, (hvisits _ _ _ hids).2.2 owner henclosing, henclosing⟩

end Correspondence.Fixture
