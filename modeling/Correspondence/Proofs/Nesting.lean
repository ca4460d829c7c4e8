import Correspondence.Proofs.Lists
import Mathlib.Data.List.Induction
import Mathlib.Logic.Relation

/-!
# Listing below a declaration

A declaration below an unknown one stands in no list, unless it is the unknown one itself: it is there when it
is to be listed, so it lists itself where its own number is named. Every other list holds declarations that
come after its owner, so no other declaration is listed below itself.
-/

namespace Correspondence

namespace Host

/-- Whether a declaration stands in a list of another one. -/
def Lists (host : Host) (owner x : DeclId) : Prop :=
  ∃ l, x ∈ host.listed owner l

/-- Whether a declaration is listed below another one, directly or through others. -/
def ListsBelow (host : Host) : DeclId → DeclId → Prop :=
  Relation.TransGen host.Lists

end Host

namespace DeclTree

/-- Whether a step adds a declaration below the number that the declaration gets. -/
def NamesItself (steps : List Step) (x : DeclId) : Prop :=
  ∃ before kind name type after, steps = before ++ .add (some x) kind name type :: after ∧
    (run {} before).next = x

section Add

variable (t : DeclTree) (enclosing : Option DeclId) (kind : DeclKind) (name : String)
  (type : Option JvmType)

theorem lists_add (p x : DeclId) : (t.add enclosing kind name type).toHost.Lists p x ↔
    t.toHost.Lists p x ∨ x = t.next ∧ enclosing = some p ∧ p.index ≤ t.size := by
  simp only [Host.Lists, listed_add, List.mem_append]
  constructor
  · intro h
    obtain ⟨l, hx | hx⟩ := h
    · exact .inl ⟨l, hx⟩
    · right
      split at hx
      · rename_i hadded
        exact ⟨List.mem_singleton.mp hx, hadded.1, hadded.2.1⟩
      · cases hx
  · intro h
    rcases h with ⟨l, hx⟩ | ⟨hx, henclosing, hle⟩
    · exact ⟨l, .inl hx⟩
    · exact ⟨kind.list, .inr (by simp [hx, henclosing, hle])⟩

end Add

variable {t : DeclTree}

theorem eq_next_of_unknown {p : DeclId} (hp : p ∉ t.ids) (hle : p.index ≤ t.size) : p = t.next := by
  rw [mem_ids, Nat.not_lt] at hp
  exact congrArg DeclId.mk (Nat.le_antisymm hle hp)

theorem listed_add_of_unknown {p q : DeclId} (hp : p ∉ t.ids) (hq : q ≠ t.next) (kind : DeclKind)
    (name : String) (type : Option JvmType) (l : DeclList) :
    (t.add (some p) kind name type).toHost.listed q l = t.toHost.listed q l := by
  rw [listed_add]
  split
  · rename_i hadded
    have hsame : p = q := Option.some.inj hadded.1
    subst hsame
    exact absurd (eq_next_of_unknown hp hadded.2.1) hq
  · exact List.append_nil _

theorem Built.not_lists_next (h : t.Built) (p : DeclId) : ¬ t.toHost.Lists p t.next := by
  intro hx
  obtain ⟨l, hl⟩ := hx
  have henclosing := (h.linked.of_mem_listed hl).1
  simp [toHost, get?_next] at henclosing

/-- A declaration that is added below an unknown one is listed only by itself, and only where it names its
own number. -/
theorem Built.lists_add_of_unknown (h : t.Built) {p : DeclId} (hp : p ∉ t.ids) (kind : DeclKind)
    (name : String) (type : Option JvmType) (q : DeclId) :
    (t.add (some p) kind name type).toHost.Lists q t.next ↔ q = t.next ∧ p = t.next := by
  rw [lists_add]
  constructor
  · intro hq
    rcases hq with hold | ⟨-, hsame, hle⟩
    · exact absurd hold (h.not_lists_next q)
    · have hpq : p = q := Option.some.inj hsame
      subst hpq
      have hnext := eq_next_of_unknown hp hle
      exact ⟨hnext, hnext⟩
  · intro hq
    exact .inr ⟨rfl, by rw [hq.1, hq.2], by rw [hq.1]; exact Nat.le_refl _⟩

/-- A list holds nothing that comes before its owner. -/
theorem Built.le_of_lists (h : t.Built) {p x : DeclId} (hx : t.toHost.Lists p x) :
    p.index ≤ x.index := by
  induction h with
  | empty =>
    obtain ⟨l, hl⟩ := hx
    simp [listed_eq, get?] at hl
  | @add t enclosing kind name type _ ih =>
    rcases (t.lists_add enclosing kind name type p x).mp hx with hold | ⟨rfl, -, hle⟩
    · exact ih hold
    · exact hle
  | attach id metadata _ ih =>
    apply ih
    simpa only [Host.Lists, listed_attach] using hx

theorem Built.lists_self_iff (h : t.Built) {x : DeclId} :
    t.toHost.Lists x x ↔ t.toHost.enclosing x = some x := by
  constructor
  · intro hx
    obtain ⟨l, hl⟩ := hx
    exact (h.linked.of_mem_listed hl).1
  · intro hx
    exact ⟨_, h.mem_listed hx (Nat.le_refl _)⟩

/-- Numbers do not get smaller on the way down, so on the way back to where it began they stay the same. -/
theorem Built.listsBelow_self_iff (h : t.Built) {x : DeclId} :
    t.toHost.ListsBelow x x ↔ t.toHost.Lists x x := by
  have hle {p q : DeclId} (hpq : Relation.ReflTransGen t.toHost.Lists p q) : p.index ≤ q.index := by
    induction hpq with
    | refl => exact Nat.le_refl _
    | tail _ hlast ih => exact Nat.le_trans ih (h.le_of_lists hlast)
  constructor
  · intro hx
    obtain ⟨y, hxy, hyx⟩ := Relation.TransGen.head'_iff.mp hx
    have hsame : x = y := congrArg DeclId.mk (Nat.le_antisymm (h.le_of_lists hxy) (hle hyx))
    rwa [← hsame] at hxy
  · exact Relation.TransGen.single

theorem NamesItself.concat {steps : List Step} {x : DeclId} (h : NamesItself steps x) (s : Step) :
    NamesItself (steps ++ [s]) x := by
  obtain ⟨before, kind, name, type, after, hsteps, hx⟩ := h
  exact ⟨before, kind, name, type, after ++ [s], by simp [hsteps], hx⟩

theorem enclosing_run_self_iff (steps : List Step) (x : DeclId) :
    (run {} steps).toHost.enclosing x = some x ↔ NamesItself steps x := by
  constructor
  · intro henclosing
    -- What encloses a declaration is settled by the step that adds it, so the last step is looked at first.
    induction steps using List.reverseRecOn with
    | nil => cases henclosing
    | append_singleton steps s ih =>
      have hrun : run {} (steps ++ [s]) = ((run {} steps).step s).2 := by simp [run]
      rw [hrun] at henclosing
      cases s with
      | add enclosing kind name type =>
        simp only [step, enclosing_add] at henclosing
        split at henclosing
        · rename_i hx
          exact ⟨steps, kind, name, type, [], by rw [henclosing], hx.symm⟩
        · exact (ih henclosing).concat _
      | attach id metadata =>
        rw [step_attach, enclosing_attach] at henclosing
        exact (ih henclosing).concat _
  · intro hadded
    obtain ⟨before, kind, name, type, after, rfl, rfl⟩ := hadded
    let added := (run {} before).add (some (run {} before).next) kind name type
    have hmem : (run {} before).next ∈ added.ids := by simp [added, ids_add]
    have hkept := (run_of_mem_ids hmem after).2.1
    rw [enclosing_add, if_pos rfl] at hkept
    simpa [run, step, added] using hkept

/-- A declaration that is added below an unknown one stands in no list exactly if it does not name its own
number, and the lists of all others stay as they are. So a list holds only declarations that come after its
owner, but for those that were added below themselves, and these are the ones that are listed below
themselves. -/
theorem listsBelow_run (steps : List Step) :
    let t := run {} steps
    (∀ p kind name type, p ∉ t.ids →
      let t' := t.add (some p) kind name type
      ((∀ q, ¬ t'.toHost.Lists q t.next) ↔ p ≠ t.next) ∧
      ∀ q l, q ≠ t.next → t'.toHost.listed q l = t.toHost.listed q l) ∧
    (∀ p x, t.toHost.Lists p x → p.index < x.index ∨ p = x ∧ NamesItself steps x) ∧
    ∀ x, t.toHost.ListsBelow x x ↔ NamesItself steps x := by
  intro t
  have hbuilt : t.Built := Built.empty.run steps
  have hself (x : DeclId) : t.toHost.Lists x x ↔ NamesItself steps x :=
    hbuilt.lists_self_iff.trans (enclosing_run_self_iff steps x)
  refine ⟨?_, ?_, fun x => hbuilt.listsBelow_self_iff.trans (hself x)⟩
  · intro p kind name type hp t'
    refine ⟨?_, fun q l hq => listed_add_of_unknown hp hq kind name type l⟩
    simp [t', hbuilt.lists_add_of_unknown hp]
  · intro p x hx
    rcases Nat.lt_or_eq_of_le (hbuilt.le_of_lists hx) with hlt | hindex
    · exact .inl hlt
    · have hsame : p = x := congrArg DeclId.mk hindex
      subst hsame
      exact .inr ⟨rfl, (hself p).mp hx⟩

/-- A package, to which a method is added below a number of another unit, and a class that is added below the
number that it gets. -/
def stray : List Step :=
  [.add none .package "tiny" none, .add (some ⟨4⟩) .method "stray" none,
    .add (some ⟨2⟩) .classType "Self" none]

theorem listsBelow_stray :
    ⟨4⟩ ∉ (run {} (stray.take 1)).ids ∧
      (∀ q, ¬ (run {} (stray.take 2)).toHost.Lists q ⟨1⟩) ∧
      NamesItself stray ⟨2⟩ ∧ (run {} stray).toHost.ListsBelow ⟨2⟩ ⟨2⟩ ∧
      ¬ (run {} stray).toHost.ListsBelow ⟨0⟩ ⟨0⟩ := by
  have hunknown : ⟨4⟩ ∉ (run {} (stray.take 1)).ids := by decide
  have hstray := (listsBelow_run (stray.take 1)).1 ⟨4⟩ .method "stray" none hunknown
  have hself : NamesItself stray ⟨2⟩ := ⟨stray.take 2, .classType, "Self", none, [], rfl, rfl⟩
  obtain ⟨-, -, hbelow⟩ := listsBelow_run stray
  refine ⟨hunknown, hstray.1.mpr (by decide), hself, (hbelow ⟨2⟩).mpr hself, ?_⟩
  intro hpackage
  have hadded := (enclosing_run_self_iff stray ⟨0⟩).mpr ((hbelow ⟨0⟩).mp hpackage)
  exact absurd hadded (by decide)

/-- A number of another unit is unknown, but what is added below it is listed where it is the next number. -/
theorem not_forall_not_lists : ¬ ∀ (steps other : List Step) (p : DeclId) (kind : DeclKind)
    (name : String) (type : Option JvmType), p ∉ (run {} steps).ids → p ∈ (run {} other).ids →
      ∀ q, ¬ ((run {} steps).add (some p) kind name type).toHost.Lists q (run {} steps).next := by
  intro h
  let tiny : List Step := [.add none .package "tiny" none]
  let big : List Step := [.add none .package "big" none, .add (some ⟨0⟩) .classType "Wide" none]
  have hunknown : ⟨1⟩ ∉ (run {} tiny).ids := by decide
  have hknown : ⟨1⟩ ∈ (run {} big).ids := by decide
  apply h tiny big ⟨1⟩ .method "stray" none hunknown hknown ⟨1⟩
  exact ⟨.enclosed, by decide⟩

end DeclTree

end Correspondence
