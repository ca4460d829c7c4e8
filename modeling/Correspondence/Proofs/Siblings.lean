import Correspondence.Proofs.Matching
import Correspondence.Proofs.Tree
import Mathlib

/-!
# Siblings

A compiler that leaves defaulted parameters out of a member keeps the others in their order, and all
members that it makes so are found. The search itself compares the parameters as sets: of a member that
lacks some of them, those that it has may also stand in another order.
-/

namespace Correspondence

/-- Whether one list is another one without some of the elements that are marked. -/
inductive LeavesOut {α : Type} : List (α × Bool) → List α → Prop
  | nil : LeavesOut [] []
  | keep {a : α} {marked : Bool} {l : List (α × Bool)} {k : List α} (h : LeavesOut l k) :
      LeavesOut ((a, marked) :: l) (a :: k)
  | drop {a : α} {l : List (α × Bool)} {k : List α} (h : LeavesOut l k) :
      LeavesOut ((a, true) :: l) k

namespace LeavesOut

variable {α : Type} {l : List (α × Bool)} {k : List α}

theorem sublist (h : LeavesOut l k) : k.Sublist (l.map Prod.fst) := by
  induction h with
  | nil => exact .slnil
  | keep _ ih => exact .cons_cons _ ih
  | drop _ ih => exact .cons _ ih

theorem mem_of_unmarked (h : LeavesOut l k) {a : α} (ha : (a, false) ∈ l) : a ∈ k := by
  induction h with
  | nil => cases ha
  | keep _ ih =>
    rcases List.mem_cons.mp ha with heq | ha
    · exact (Prod.mk.inj heq).1 ▸ List.mem_cons_self
    · exact List.mem_cons_of_mem _ (ih ha)
  | drop _ ih =>
    rcases List.mem_cons.mp ha with heq | ha
    · cases heq
    · exact ih ha

/-- In a list without repetitions everything that is kept but marked could have been left out. -/
theorem of_sublist (hnodup : (l.map Prod.fst).Nodup) (hsub : k.Sublist (l.map Prod.fst))
    (hkept : ∀ a, (a, false) ∈ l → a ∈ k) : LeavesOut l k := by
  induction l generalizing k with
  | nil =>
    obtain rfl := List.sublist_nil.mp hsub
    exact .nil
  | cons x l ih =>
    obtain ⟨a, marked⟩ := x
    rw [List.map_cons] at hnodup hsub
    obtain ⟨hfresh, hnodup⟩ := List.nodup_cons.mp hnodup
    cases hsub with
    | cons _ hsub =>
      have hkept' := ih hnodup hsub fun a ha => hkept a (List.mem_cons_of_mem _ ha)
      cases marked with
      | false => exact absurd (hsub.subset (hkept a List.mem_cons_self)) hfresh
      | true => exact .drop hkept'
    | cons_cons _ hsub =>
      refine .keep (ih hnodup hsub fun b hb => ?_)
      rcases List.mem_cons.mp (hkept b (List.mem_cons_of_mem _ hb)) with rfl | hb'
      · exact absurd (List.mem_map_of_mem (f := Prod.fst) hb) hfresh
      · exact hb'

end LeavesOut

/-- Whether the compiled parameter at a position is a value parameter with a default. -/
def MatchRequest.hasDefaultAt (request : MatchRequest) (position : Nat) : Bool :=
  request.implicitLeading ≤ position &&
    (request.parameters[position - request.implicitLeading]?).any IndexedParameter.hasDefault

theorem MatchRequest.isRequired_eq (request : MatchRequest) (position : Nat) :
    request.isRequired position = !request.hasDefaultAt position := by
  have hlt : decide (position < request.implicitLeading) =
      !decide (request.implicitLeading ≤ position) := by
    rw [← decide_not]
    exact decide_eq_decide.mpr Nat.not_le.symm
  unfold isRequired hasDefaultAt
  rw [hlt, Bool.not_and]
  cases request.parameters[position - request.implicitLeading]? <;> rfl

namespace MemberMatcher

variable {m : MemberMatcher} {request : MatchRequest} {found : MemberMatch}

/-- The names and erased types of the parameters of a member, each marked whether it is a value
parameter with a default. -/
def markedKeys (m : MemberMatcher) (request : MatchRequest) (host : DeclId) :
    List ((String × Option JvmType) × Bool) :=
  (m.host.parameterKeys host).mapIdx fun position key => (key, request.hasDefaultAt position)

/-- Whether the parameters of a member are those of the matched one without one or more that have
defaults. -/
structure IsReduction (m : MemberMatcher) (request : MatchRequest) (host s : DeclId) : Prop where
  leavesOut : LeavesOut (m.markedKeys request host) (m.host.parameterKeys s)
  shorter : (m.host.parameterKeys s).length < (m.host.parameterKeys host).length

private theorem map_fst_markedKeys (m : MemberMatcher) (request : MatchRequest) (host : DeclId) :
    (m.markedKeys request host).map Prod.fst = m.host.parameterKeys host := by
  apply List.ext_getElem <;> simp [markedKeys]

private theorem mem_markedKeys_iff {host : DeclId} {key : String × Option JvmType} :
    (key, false) ∈ m.markedKeys request host ↔
      ∃ i : Nat, (m.host.parameterKeys host)[i]? = some key ∧ request.isRequired i = true := by
  simp only [markedKeys, List.mem_mapIdx, MatchRequest.isRequired_eq]
  constructor
  · rintro ⟨i, hi, heq⟩
    obtain ⟨rfl, hmark⟩ := Prod.mk.inj heq
    exact ⟨i, List.getElem?_eq_getElem hi, by rw [hmark]; rfl⟩
  · rintro ⟨i, hkey, hmark⟩
    obtain ⟨hi, rfl⟩ := List.getElem?_eq_some_iff.mp hkey
    exact ⟨i, hi, by rw [Bool.not_eq_eq_eq_not.mp hmark]; rfl⟩

theorem Sibling.of_isReduction {host s : DeclId} (hreduction : m.IsReduction request host s)
    (hname : m.host.simpleName s = m.host.simpleName host)
    (hsignature : m.host.signature s ≠ request.signature)
    (hfree : m.index.any (·.reserves m.kind (m.host.signature s)) = false) :
    m.Sibling request host s where
  name := hname
  signature := hsignature
  free := hfree
  known := map_fst_markedKeys m request host ▸ hreduction.leavesOut.sublist.subset
  required hkey hrequired :=
    hreduction.leavesOut.mem_of_unmarked (mem_markedKeys_iff.mpr ⟨_, hkey, hrequired⟩)

/-- A sibling leaves out nothing but value parameters with a default. -/
theorem Sibling.hasDefaultAt {host s : DeclId} (h : m.Sibling request host s) {i : Nat}
    {key : String × Option JvmType} (hkey : (m.host.parameterKeys host)[i]? = some key)
    (hout : key ∉ m.host.parameterKeys s) : request.hasDefaultAt i = true := by
  by_contra hdefault
  rw [Bool.not_eq_true] at hdefault
  exact hout (h.required hkey (by rw [MatchRequest.isRequired_eq, hdefault]; rfl))

/-- A sibling that lacks a parameter is there because some parameter has a default. -/
theorem Sibling.exists_hasDefault {host s : DeclId} (h : m.Sibling request host s)
    (hlacks : ¬ m.host.parameterKeys host ⊆ m.host.parameterKeys s) :
    ∃ p ∈ request.parameters, p.hasDefault = true := by
  obtain ⟨key, hkey, hout⟩ : ∃ key ∈ m.host.parameterKeys host, key ∉ m.host.parameterKeys s := by
    simpa [List.subset_def] using hlacks
  obtain ⟨i, hi⟩ := List.mem_iff_getElem?.mp hkey
  have hdefault := h.hasDefaultAt hi hout
  rw [MatchRequest.hasDefaultAt, Bool.and_eq_true, Option.any_eq_true] at hdefault
  obtain ⟨-, p, hp, hdefault⟩ := hdefault
  exact ⟨p, List.mem_of_getElem? hp, hdefault⟩

theorem Sibling.length_lt {host s : DeclId} (h : m.Sibling request host s)
    (hlacks : ¬ m.host.parameterKeys host ⊆ m.host.parameterKeys s)
    (hnodup : (m.host.parameterKeys s).Nodup) :
    (m.host.parameterKeys s).length < (m.host.parameterKeys host).length := by
  have hsub := hnodup.subperm h.known
  -- As many distinct parameters of the matched member as it has are all of them.
  refine Nat.lt_of_le_of_ne hsub.length_le fun hlength => hlacks ?_
  exact (hsub.perm_of_length_le hlength.ge).symm.subset

/-- Between distinct parameters a sibling that lacks some leaves defaulted ones out exactly if it keeps
the order. -/
theorem Sibling.isReduction_iff {host s : DeclId} (h : m.Sibling request host s)
    (hlacks : ¬ m.host.parameterKeys host ⊆ m.host.parameterKeys s)
    (hnodup : (m.host.parameterKeys host).Nodup) :
    m.IsReduction request host s ↔ (m.host.parameterKeys s).Sublist (m.host.parameterKeys host) := by
  have hfst := map_fst_markedKeys m request host
  constructor
  · intro hreduction
    exact hfst ▸ hreduction.leavesOut.sublist
  · intro hsub
    refine ⟨.of_sublist (hfst ▸ hnodup) (hfst ▸ hsub) fun key hkey => ?_, ?_⟩
    · obtain ⟨i, hkey, hrequired⟩ := mem_markedKeys_iff.mp hkey
      exact h.required hkey hrequired
    · exact h.length_lt hlacks (hnodup.sublist hsub)

/-- The parameters of a sibling are parameters of the matched member, and those that it lacks are value
parameters with defaults. A sibling that lacks some is there because of a default, has fewer parameters,
and is made by leaving parameters out exactly if it keeps their order. Every member that is made so, with
the name of the matched one and a signature that no descriptor records, is a sibling. -/
theorem siblings_of_find (h : m.find request = .ok found) :
    let keys := m.host.parameterKeys found.host
    (∀ s ∈ found.overloads,
      m.host.parameterKeys s ⊆ keys ∧
      (∀ i key, keys[i]? = some key → key ∉ m.host.parameterKeys s → request.hasDefaultAt i) ∧
      (¬ keys ⊆ m.host.parameterKeys s →
        (∃ p ∈ request.parameters, p.hasDefault = true) ∧
        ((m.host.parameterKeys s).Nodup → (m.host.parameterKeys s).length < keys.length) ∧
        (keys.Nodup →
          (m.IsReduction request found.host s ↔ (m.host.parameterKeys s).Sublist keys)))) ∧
    ∀ s ∈ m.host.members m.owner m.kind, m.host.simpleName s = m.host.simpleName found.host →
      m.host.signature s ≠ request.signature →
      m.index.any (·.reserves m.kind (m.host.signature s)) = false →
      m.IsReduction request found.host s → s ∈ found.overloads := by
  intro keys
  have fits := find_eq_ok h
  refine ⟨fun s hs => ?_, fun s hs hname hsignature hfree hreduction => ?_⟩
  · have hsibling := (fits.mem_overloads.mp hs).2
    refine ⟨hsibling.known, fun i key => hsibling.hasDefaultAt, fun hlacks => ?_⟩
    exact ⟨hsibling.exists_hasDefault hlacks, hsibling.length_lt hlacks,
      hsibling.isReduction_iff hlacks⟩
  · exact fits.mem_overloads.mpr ⟨hs, .of_isReduction hreduction hname hsignature hfree⟩

end MemberMatcher

namespace DeclTree

/-- A class with a method `f(x, y, z)` and two that have its first two parameters, one of them in the
other order. -/
def reordered : DeclTree :=
  let t := ({} : DeclTree).addPackage "p"
  let t := t.addType ⟨0⟩ .classType "C"
  let t := t.addMethod ⟨1⟩ "f" .void
  let t := t.addParameter ⟨2⟩ "x" .int
  let t := t.addParameter ⟨2⟩ "y" .long
  let t := t.addParameter ⟨2⟩ "z" .int
  let t := t.addMethod ⟨1⟩ "f" .void
  let t := t.addParameter ⟨6⟩ "y" .long
  let t := t.addParameter ⟨6⟩ "x" .int
  let t := t.addMethod ⟨1⟩ "f" .void
  let t := t.addParameter ⟨9⟩ "x" .int
  t.addParameter ⟨9⟩ "y" .long

end DeclTree

namespace MemberMatcher

/-- The matcher for the methods of the class. -/
def ofReordered : MemberMatcher :=
  { host := DeclTree.reordered.toHost, owner := ⟨1⟩, kind := .method }

/-- The request for `f(x, y, z)`, of which the last parameter has a default. -/
def requestOfReordered : MatchRequest :=
  { descriptor := "f", signature := "f(IJI)V"
    parameters := [{ name := "x" }, { name := "y" }, { name := "z", hasDefault := true }] }

private theorem find_reordered :
    ofReordered.find requestOfReordered = .ok
      { host := ⟨2⟩, overloads := [⟨6⟩, ⟨9⟩]
        parameters := [⟨⟨3⟩, [⟨8⟩, ⟨10⟩]⟩, ⟨⟨4⟩, [⟨7⟩, ⟨11⟩]⟩, ⟨⟨5⟩, []⟩] } := by
  decide +kernel

private theorem not_sublist_reordered :
    ¬ (ofReordered.host.parameterKeys ⟨6⟩).Sublist (ofReordered.host.parameterKeys ⟨2⟩) := by
  decide

/-- Both methods without the last parameter are siblings, but only one of them keeps the order of the
other two. -/
theorem siblings_reordered :
    ∃ found, ofReordered.find requestOfReordered = .ok found ∧
      found.overloads = [⟨6⟩, ⟨9⟩] ∧
      ofReordered.IsReduction requestOfReordered found.host ⟨9⟩ ∧
      (ofReordered.host.parameterKeys ⟨6⟩).length < (ofReordered.host.parameterKeys ⟨2⟩).length ∧
      ¬ ofReordered.IsReduction requestOfReordered found.host ⟨6⟩ := by
  obtain ⟨hsiblings, -⟩ := siblings_of_find find_reordered
  have hnodup : (ofReordered.host.parameterKeys ⟨2⟩).Nodup := by decide
  obtain ⟨-, -, hreordered⟩ := hsiblings ⟨6⟩ (by decide)
  obtain ⟨-, -, hkept⟩ := hsiblings ⟨9⟩ (by decide)
  obtain ⟨-, hshorter, hiff⟩ := hreordered (by decide)
  obtain ⟨-, -, hiff'⟩ := hkept (by decide)
  exact ⟨_, find_reordered, rfl, (hiff' hnodup).mpr (by decide), hshorter (by decide),
    mt (hiff hnodup).mp not_sublist_reordered⟩

/-- Siblings need not be made by leaving out parameters with defaults: the parameters that are left may
stand in another order. -/
theorem not_forall_isReduction :
    ¬ ∀ (m : MemberMatcher) (request : MatchRequest) (found : MemberMatch),
      m.find request = .ok found → ∀ s ∈ found.overloads, m.IsReduction request found.host s := by
  intro h
  have hreduction := h ofReordered requestOfReordered _ find_reordered ⟨6⟩ (by decide)
  have hsub := hreduction.leavesOut.sublist
  rw [map_fst_markedKeys] at hsub
  exact not_sublist_reordered hsub

end MemberMatcher

end Correspondence
