import Correspondence.Proofs.Enclosing
import Correspondence.Proofs.Sources

/-!
# Declarations at the top level

A declaration is at the top level if nothing, a package or a file is around it. Its element is so
exactly if nothing, a package or a file encloses the element, as far as that can be said: where only
types carry metadata, what a declaration is among declarations its element is among elements.
-/

namespace Correspondence

/-- Whether an element is a package or a file. -/
def Element.isOuter : Element → Bool
  | .package _ | .fileFacade _ => true
  | _ => false

theorem Element.exists_host?_of_owner? {e : Element} (h : e.owner? = none) :
    ∃ d, e.host? = some d := by
  cases e <;> first | exact ⟨_, rfl⟩ | cases h

theorem Element.owner?_of_isOuter {e : Element} (h : e.isOuter) : e.owner? = none := by
  cases e <;> first | rfl | cases h

/-- Whether a declaration is a package or a file. -/
def Host.isOuter (host : Host) (d : DeclId) : Bool :=
  host.kind d = .package || (host.metadata d).any Metadata.isPackageLevel

namespace Resolver

variable {r : Resolver} {c c' : Cache} {d parent container : DeclId} {id owner place : ElementId}
  {e : Element} {o : Origin} {b : Batch}

theorem isTopLevel_eq (r : Resolver) (d : DeclId) :
    r.isTopLevel d = (r.host.enclosing d).all r.host.isOuter := rfl

/-- The file of a batch stands for the type with the metadata. -/
private theorem metadata_of_fileFacade (linked : r.host.Linked)
    (hb : r.batch? container = some b) {f : FileFacadeElement}
    (hf : b.get? place = some (.fileFacade f)) :
    f.host = container ∧ ∃ metadata, r.host.metadata container = some (.fileFacade metadata) := by
  obtain ⟨hkind, ⟨build, hbuild, hrun⟩, hcomplete⟩ := batch?_eq_some linked hb
  obtain ⟨index, constructors, functions, -, hst⟩ := hcomplete.stage
  obtain rfl : place = ⟨0⟩ := hst.accounted hf
  obtain ⟨e, he, -, hforms, -⟩ := hcomplete.container
  obtain rfl := Option.some.inj (hf.symm.trans he)
  refine ⟨List.singleton_inj.mp hforms, ?_⟩
  unfold build? at hbuild
  split at hbuild
  · rename_i metadata hmetadata
    obtain rfl := Option.some.inj hbuild
    obtain ⟨-, -, index, t, -, ht, -⟩ := Building.buildType_ok linked hkind hmetadata hrun
    cases hf.symm.trans ht
  · exact ⟨_, by assumption⟩
  · cases hbuild

/-- What stands for a package or a file is one. -/
private theorem isOuter_host (linked : r.host.Linked) (acyclic : r.host.Acyclic)
    (horigin : r.origin parent = .ok (some o)) (hholds : o.Holds r c owner)
    (he : c.element? owner = some e) (houter : e.isOuter) : r.host.isOuter parent := by
  cases arises_of_origin linked acyclic horigin with
  | package hkind => simp [Host.isOuter, hkind]
  | implicit kind hkind =>
    obtain rfl := Option.some.inj (he.symm.trans hholds)
    cases houter
  | implicitIn kind hparent howner =>
    obtain ⟨owner', -, -, hel⟩ := hholds
    obtain rfl := Option.some.inj (he.symm.trans hel)
    cases houter
  | claimed hb hclaim =>
    obtain ⟨n, e₀, hplaces, rfl, he₀⟩ := hholds.exists_places hb
    obtain rfl := Option.some.inj (he.symm.trans (hplaces.element he₀))
    obtain ⟨e₁, he₁, hforms⟩ := (sound_of_batch? linked hb).claimed.mp hclaim
    obtain rfl := Option.some.inj (he₀.symm.trans he₁)
    obtain ⟨-, -, hcomplete⟩ := batch?_eq_some linked hb
    obtain ⟨index, constructors, functions, -, hst⟩ := hcomplete.stage
    cases e₀ with
    | fileFacade f =>
      obtain ⟨rfl, metadata, hmetadata⟩ := metadata_of_fileFacade linked hb he₀
      obtain rfl := List.mem_singleton.mp hforms
      simp [Host.isOuter, hmetadata, Metadata.isPackageLevel]
    | package p => exact (hst.accounted he₀).elim
    | _ => cases houter
  | namedParameter hparent howner hb hget _ _ _ hids hplace =>
    obtain ⟨owner', howner', -⟩ :=
      owner?_of_listed linked hb hget (Element.listed_of_parameters? hids ▸ hplace) hholds he
    cases (Element.owner?_of_isOuter houter).symm.trans howner'
  | namedTypeParameter hparent howner hb hget _ _ _ hids hplace =>
    obtain ⟨owner', howner', -⟩ :=
      owner?_of_listed linked hb hget (Element.listed_of_typeParameters? hids ▸ hplace) hholds he
    cases (Element.owner?_of_isOuter houter).symm.trans howner'

/-- Packages and files are what their declarations stand for, where only types carry metadata. -/
private theorem isOuter_element (linked : r.host.Linked) (acyclic : r.host.Acyclic)
    (described : r.host.DescribesTypesOnly) (horigin : r.origin parent = .ok (some o))
    (hholds : o.Holds r c owner) (he : c.element? owner = some e)
    (houter : r.host.isOuter parent) : e.isOuter := by
  by_cases hpackage : r.host.kind parent = .package
  · rw [origin_eq linked acyclic] at horigin
    simp only [originStep, hpackage] at horigin
    obtain rfl := Option.some.inj (Except.ok.inj horigin)
    obtain rfl := Option.some.inj (he.symm.trans hholds)
    rfl
  have hlevel : (r.host.metadata parent).any Metadata.isPackageLevel := by
    simpa [Host.isOuter, hpackage] using houter
  cases hmetadata : r.host.metadata parent with
  | none => simp [hmetadata] at hlevel
  | some metadata =>
    have hkind : (r.host.kind parent).isType := described parent (by rw [hmetadata]; rfl)
    have hcarrier : r.host.carrier parent = some parent := by
      rw [acyclic.carrier_eq linked, hmetadata]
      rfl
    cases metadata with
    | ofClass metadata => simp [hmetadata, Metadata.isPackageLevel] at hlevel
    | synthetic => simp [hmetadata, Metadata.isPackageLevel] at hlevel
    | fileFacade metadata =>
      obtain ⟨b, hmade, hb, hstaged⟩ :=
        exists_made_of_origin linked acyclic hkind (build?_of_fileFacade hmetadata) horigin
      obtain rfl := Option.some.inj hstaged
      obtain ⟨-, -, f, hf⟩ := Building.buildFileFacade_ok linked hmetadata hmade
      obtain ⟨n, e₀, hplaces, rfl, he₀⟩ := hholds.exists_places hb
      obtain rfl := Option.some.inj (he₀.symm.trans hf)
      obtain rfl := Option.some.inj (he.symm.trans (hplaces.element he₀))
      rfl
    | multiFileFacade parts =>
      rw [origin_eq linked acyclic, originStep_of_isType hkind hcarrier] at horigin
      simp only [typeOrigin, hmetadata] at horigin
      cases horigin
    | multiFilePart metadata facade =>
      rw [origin_eq linked acyclic, originStep_of_isType hkind hcarrier] at horigin
      simp only [typeOrigin, hmetadata] at horigin
      cases horigin

/-- Where only types carry metadata, a declaration is a package or a file exactly if what it stands for
is one. -/
theorem isOuter_eq (linked : r.host.Linked) (acyclic : r.host.Acyclic)
    (described : r.host.DescribesTypesOnly) (horigin : r.origin parent = .ok (some o))
    (hholds : o.Holds r c owner) (he : c.element? owner = some e) :
    r.host.isOuter parent = e.isOuter :=
  Bool.eq_iff_iff.mpr ⟨isOuter_element linked acyclic described horigin hholds he,
    isOuter_host linked acyclic horigin hholds he⟩

/-- Every declaration of an element with an owner is at the top level if the owner is a package or a
file. -/
theorem Faithful.isTopLevel_of_owner (h : r.Faithful c) (linked : r.host.Linked)
    (acyclic : r.host.Acyclic) (described : r.host.DescribesTypesOnly)
    (he : c.element? id = some e) (howner : e.owner? = some owner) {oe : Element}
    (ho : c.element? owner = some oe) (hd : d ∈ e.hostForms) : r.isTopLevel d = oe.isOuter := by
  rcases h.owner?_cases linked acyclic (h.filed he hd) he with
    ⟨hnone, -⟩ | ⟨owner', parent, o, howner', hparent, horigin, hholds⟩
  · cases hnone.symm.trans howner
  · obtain rfl := Option.some.inj (howner.symm.trans howner')
    rw [isTopLevel_eq, hparent, Option.all_some]
    exact isOuter_eq linked acyclic described horigin hholds ho

/-- An element with an owner is at the top level if the owner is a package or a file. A property, of
which this is only asked for files, does not belong to a package. -/
theorem Faithful.isTopLevelElement_of_owner (h : r.Faithful c) (linked : r.host.Linked)
    (acyclic : r.host.Acyclic) (described : r.host.DescribesTypesOnly)
    (he : c.element? id = some e) (howner : e.owner? = some owner) {oe : Element}
    (ho : c.element? owner = some oe) : r.isTopLevelElement c id = oe.isOuter := by
  have hforms {d : DeclId} (hd : d ∈ e.hostForms) :=
    h.isTopLevel_of_owner linked acyclic described he howner ho hd
  cases e with
  | property p =>
    obtain ⟨owner', o, howner', ho', hcount⟩ := (h.intact linked he).once (l := .properties) rfl
    obtain rfl := Option.some.inj (howner.symm.trans howner')
    obtain rfl := Option.some.inj (ho.symm.trans ho')
    obtain rfl : p.owner = owner := Option.some.inj howner
    simp only [isTopLevelElement, he, ho]
    cases oe with
    | package x => cases hcount .properties
    | _ => rfl
  | package _ | type _ | fileFacade _ => cases howner
  | _ =>
    simp only [isTopLevelElement, he]
    exact hforms List.mem_cons_self

/-- An element without an owner is at the top level if its declaration is, or if it is a package. -/
theorem isTopLevelElement_of_host? (he : c.element? id = some e) (howner : e.owner? = none)
    (hd : e.host? = some d) (hpackage : ∀ p, e ≠ .package p) :
    r.isTopLevelElement c id = r.isTopLevel d := by
  have hany : r.isTopLevelElement c id = e.host?.any r.isTopLevel := by
    simp only [isTopLevelElement, he]
    cases e with
    | package p => exact absurd rfl (hpackage p)
    | property p => cases howner
    | _ => rfl
  rw [hany, hd, Option.any_some]

theorem isTopLevelElement_of_package {p : PackageElement} (he : c.element? id = some (.package p)) :
    r.isTopLevelElement c id = true := by
  simp only [isTopLevelElement, he]

/-- Where the search for what encloses an element succeeds, the element is at the top level if it is a
package or in nothing, a package or a file. -/
theorem Faithful.isTopLevelElement_iff (h : r.Faithful c) (linked : r.host.Linked)
    (acyclic : r.host.Acyclic) (described : r.host.DescribesTypesOnly)
    (he : c.element? id = some e) {x : Option ElementId}
    (hrun : r.enclosingElement id c = .ok x c') :
    r.isTopLevelElement c id ↔ (∃ p, e = .package p) ∨ x = none ∨
      ∃ owner oe, x = some owner ∧ c'.element? owner = some oe ∧ oe.isOuter := by
  by_cases hpackage : ∃ p, e = .package p
  · obtain ⟨p, rfl⟩ := hpackage
    exact iff_of_true (isTopLevelElement_of_package he) (.inl ⟨p, rfl⟩)
  have hother (p : PackageElement) : e ≠ .package p := fun heq => hpackage ⟨p, heq⟩
  have owned {owner : ElementId} {oe : Element} (hx : x = some owner)
      (hoe : c'.element? owner = some oe) (heq : r.isTopLevelElement c id = oe.isOuter) :
      r.isTopLevelElement c id ↔ (∃ p, e = .package p) ∨ x = none ∨
        ∃ owner oe, x = some owner ∧ c'.element? owner = some oe ∧ oe.isOuter := by
    rw [heq]
    refine ⟨fun houter => .inr (.inr ⟨owner, oe, hx, hoe, houter⟩), ?_⟩
    rintro (hp | hnone | ⟨owner', oe', hx', hoe', houter⟩)
    · exact absurd hp hpackage
    · cases hnone.symm.trans hx
    · obtain rfl := Option.some.inj (hx.symm.trans hx')
      obtain rfl := Option.some.inj (hoe.symm.trans hoe')
      exact houter
  obtain ⟨hkeeps, ⟨hx, hsome⟩ | ⟨howner, hparent, hx⟩ |
    ⟨howner, parent, owner, hparent, hentry, hx⟩⟩ := enclosingElement_eq_ok linked acyclic h he hrun
  · obtain ⟨owner, rfl⟩ := Option.isSome_iff_exists.mp hsome
    obtain ⟨oe, hoe⟩ :=
      (h.intact linked he).references (Element.mem_references_of_owner? hx.symm)
    exact owned rfl (hkeeps.grows.element hoe)
      (h.isTopLevelElement_of_owner linked acyclic described he hx.symm hoe)
  · obtain ⟨d, hd⟩ := Element.exists_host?_of_owner? howner
    rw [hd, Option.bind_some] at hparent
    refine iff_of_true ?_ (.inr (.inl hx))
    rw [isTopLevelElement_of_host? he howner hd hother, isTopLevel_eq, hparent]
    rfl
  · obtain ⟨d, hd⟩ := Element.exists_host?_of_owner? howner
    rw [hd, Option.bind_some] at hparent
    obtain ⟨o, horigin, hholds⟩ := hkeeps.faithful.entry hentry
    obtain ⟨oe, hoe⟩ := hholds.exists_element
    refine owned hx hoe ?_
    rw [isTopLevelElement_of_host? he howner hd hother, isTopLevel_eq, hparent, Option.all_some]
    exact isOuter_eq linked acyclic described horigin hholds hoe

/-- Every declaration of an element that is no package is at the top level if the element is. -/
theorem Faithful.isTopLevelElement_eq (h : r.Faithful c) (linked : r.host.Linked)
    (acyclic : r.host.Acyclic) (described : r.host.DescribesTypesOnly)
    (he : c.element? id = some e) (hpackage : ∀ p, e ≠ .package p) (hd : d ∈ e.hostForms) :
    r.isTopLevelElement c id = r.isTopLevel d := by
  cases howner : e.owner? with
  | none =>
    exact isTopLevelElement_of_host? he howner (Element.host?_eq_some_of_mem hd howner) hpackage
  | some owner =>
    obtain ⟨oe, hoe⟩ :=
      (h.intact linked he).references (Element.mem_references_of_owner? howner)
    rw [h.isTopLevelElement_of_owner linked acyclic described he howner hoe,
      h.isTopLevel_of_owner linked acyclic described he howner hoe hd]

/-- Whether an element is at the top level does not change as more is found out. -/
theorem Faithful.isTopLevelElement_mono (h : r.Faithful c) (linked : r.host.Linked)
    (he : c.element? id = some e) (hc : c.Grows c') :
    r.isTopLevelElement c' id = r.isTopLevelElement c id := by
  cases e with
  | property p =>
    have howner : (Element.property p).owner? = some p.owner := rfl
    obtain ⟨oe, hoe⟩ := (h.intact linked he).references (Element.mem_references_of_owner? howner)
    simp only [isTopLevelElement, he, hoe, hc.element he, hc.element hoe]
  | _ => simp only [isTopLevelElement, he, hc.element he]

/-- Where only types carry metadata, in every cache that operations lead to, an element is at the top
level exactly if it is a package, or if nothing, a package or a file encloses it, provided that what
encloses it can be found. The same holds then of each of its declarations, but for packages. -/
theorem isTopLevelElement_runAll {t : DeclTree} (built : t.Built) (acyclic : t.toHost.Acyclic)
    (described : t.toHost.DescribesTypesOnly) (config : Config) (ops : List Operation) :
    let r : Resolver := ⟨t.toHost, config⟩
    let c := r.runAll ops
    ∀ id e, c.element? id = some e →
      (∀ x c', r.enclosingElement id c = .ok x c' →
        r.isTopLevelElement c' id = r.isTopLevelElement c id ∧
        (r.isTopLevelElement c id ↔ (∃ p, e = .package p) ∨ x = none ∨
          ∃ owner oe, x = some owner ∧ c'.element? owner = some oe ∧ oe.isOuter)) ∧
      ((∀ p, e ≠ .package p) → ∀ d ∈ e.hostForms, r.isTopLevelElement c id = r.isTopLevel d) := by
  intro r c id e he
  have linked : r.host.Linked := built.linked.toHost
  have h : r.Faithful c := faithful_runAll linked acyclic ops
  refine ⟨fun x c' hrun => ⟨?_, h.isTopLevelElement_iff linked acyclic described he hrun⟩,
    fun hpackage d hd => h.isTopLevelElement_eq linked acyclic described he hpackage hd⟩
  obtain ⟨hkeeps, -⟩ := enclosingElement_eq_ok linked acyclic h he hrun
  exact h.isTopLevelElement_mono linked he hkeeps.grows

private theorem enclosingElement_propertied :
    ofPropertied.enclosingElement ⟨0⟩ Cache.propertied = .ok (some ⟨2⟩)
      (Cache.propertied.insert ⟨0⟩ (.package { host := ⟨0⟩, name := "p" })) := by
  decide +kernel

/-- The class, which a package encloses, is at the top level. Its property is not, and neither are the
members that the property stands for. -/
theorem isTopLevelElement_propertied :
    let c := ofPropertied.runAll [.resolve ⟨3⟩]
    ofPropertied.isTopLevelElement c ⟨0⟩ = true ∧ ofPropertied.isTopLevelElement c ⟨1⟩ = false ∧
      ∀ d ∈ [⟨2⟩, ⟨3⟩, ⟨4⟩, ⟨6⟩], ofPropertied.isTopLevel d = false := by
  intro c
  have hall := isTopLevelElement_runAll (DeclTree.built_propertied .propertied .companion)
    (DeclTree.acyclic_propertied .propertied .companion)
    (DeclTree.describesTypesOnly_toHost rfl) {} [.resolve ⟨3⟩]
  have hc : c = Cache.propertied := runAll_propertied []
  obtain ⟨t, ht⟩ : ∃ t, c.element? ⟨0⟩ = some (.type t) := by
    rw [hc]
    exact ⟨_, rfl⟩
  obtain ⟨p, hp, howner, hforms⟩ : ∃ p, c.element? ⟨1⟩ = some (.property p) ∧ p.owner = ⟨0⟩ ∧
      p.hosts = [⟨2⟩, ⟨3⟩, ⟨4⟩, ⟨6⟩] := by
    rw [hc]
    exact ⟨_, rfl, rfl, rfl⟩
  obtain ⟨hclass, -⟩ := hall ⟨0⟩ _ ht
  obtain ⟨hproperty, hmembers⟩ := hall ⟨1⟩ _ hp
  have hinner : ofPropertied.isTopLevelElement c ⟨1⟩ = false := by
    obtain ⟨-, hiff⟩ := hproperty _ _ (enclosingElement_of_owner hp rfl)
    rw [← Bool.not_eq_true]
    intro htop
    rcases hiff.mp htop with ⟨x, hx⟩ | hx | ⟨owner, oe, hx, hoe, houter⟩
    · cases hx
    · cases hx
    · obtain rfl := Option.some.inj hx
      obtain rfl := Option.some.inj (ht.symm.trans (howner ▸ hoe))
      cases houter
  refine ⟨?_, hinner, fun d hd => ?_⟩
  · have hrun := enclosingElement_propertied
    rw [← hc] at hrun
    obtain ⟨-, hiff⟩ := hclass _ _ hrun
    have hpackage := Cache.element?_insert_next c ⟨0⟩ (.package { host := ⟨0⟩, name := "p" })
    have hnext : c.next = ⟨2⟩ := by
      rw [hc]
      rfl
    rw [hnext] at hpackage
    exact hiff.mpr (.inr (.inr ⟨⟨2⟩, _, rfl, hpackage, rfl⟩))
  · rw [← hforms] at hd
    exact (hmembers (fun x hx => by cases hx) d hd).symm.trans hinner

end Resolver

end Correspondence
