import Correspondence.Proofs.Tree
import Mathlib.Data.List.Perm.Subperm
import Mathlib.Data.List.Range

/-!
# Chains of enclosing declarations

In a host without cycles every chain ends before the bound on its length, so that what is defined
with the bound unfolds as if there were none.
-/

namespace Correspondence.Host

variable {host : Host}

/-- Whether no declaration encloses itself, directly or through others. -/
def Acyclic (host : Host) : Prop :=
  ∀ d, ¬ Relation.TransGen (fun owner x => host.enclosing x = some owner) d d

/-- Whether the chain of enclosing declarations has at most `n` members. -/
def EndsWithin (host : Host) : Nat → DeclId → Prop
  | 0, _ => False
  | n + 1, d => ∀ owner, host.enclosing d = some owner → host.EndsWithin n owner

private theorem length_le_size (visited : List DeclId) (hn : visited.Nodup)
    (hlt : ∀ v ∈ visited, v.index < host.size) : visited.length ≤ host.size := by
  have hsub : visited ⊆ host.ids := by
    intro v hv
    exact List.mem_map.mpr ⟨v.index, List.mem_range.mpr (hlt v hv), rfl⟩
  have hle := (hn.subperm hsub).length_le
  simpa [ids] using hle

/-- The declarations that a chain has passed are different, so they use the bound up. -/
private theorem endsWithin_of_visited (linked : host.Linked) (acyclic : host.Acyclic) (n : Nat)
    (visited : List DeclId) (d : DeclId) (hn : visited.Nodup)
    (hlt : ∀ v ∈ visited, v.index < host.size)
    (hbelow : ∀ v ∈ visited, Relation.TransGen (fun owner x => host.enclosing x = some owner) d v)
    (hbound : host.size < n + visited.length) : host.EndsWithin n d := by
  induction n generalizing visited d with
  | zero =>
    have := length_le_size visited hn hlt
    omega
  | succ n ih =>
    intro owner howner
    apply ih (d :: visited)
    · exact List.nodup_cons.mpr ⟨fun hd => acyclic d (hbelow d hd), hn⟩
    · intro v hv
      rcases List.mem_cons.mp hv with rfl | hv
      · exact linked.known howner
      · exact hlt v hv
    · intro v hv
      rcases List.mem_cons.mp hv with rfl | hv
      · exact .single howner
      · exact .head howner (hbelow v hv)
    · simp only [List.length_cons]
      omega

theorem Acyclic.endsWithin (acyclic : host.Acyclic) (linked : host.Linked) (d : DeclId) :
    host.EndsWithin host.chainBound d := by
  apply endsWithin_of_visited linked acyclic host.chainBound [] d .nil <;> simp [chainBound]

/-- Induction from a declaration to those that it encloses. -/
theorem Acyclic.induction (acyclic : host.Acyclic) (linked : host.Linked) {P : DeclId → Prop}
    (step : ∀ d, (∀ owner, host.enclosing d = some owner → P owner) → P d) (d : DeclId) : P d := by
  suffices h : ∀ n d, host.EndsWithin n d → P d from h _ d (acyclic.endsWithin linked d)
  intro n
  induction n with
  | zero => intro d h; exact h.elim
  | succ n ih => intro d h; exact step d fun owner howner => ih owner (h owner howner)

section Bounded

variable {α : Type} {F : Nat → DeclId → α} {G : (DeclId → α) → DeclId → α}

private theorem bounded_congr (hF : ∀ n d, F (n + 1) d = G (F n) d)
    (hG : ∀ f g d, (∀ owner, host.enclosing d = some owner → f owner = g owner) →
      G f d = G g d)
    (n m : Nat) (d : DeclId) (hn : host.EndsWithin n d) (hm : host.EndsWithin m d) :
    F n d = F m d := by
  induction n generalizing m d with
  | zero => exact hn.elim
  | succ n ih =>
    cases m with
    | zero => exact hm.elim
    | succ m =>
      rw [hF, hF]
      exact hG _ _ d fun owner howner => ih m owner (hn owner howner) (hm owner howner)

/-- What is computed along the chain within the bound is computed in steps without a bound. -/
theorem Acyclic.bounded_eq (acyclic : host.Acyclic) (linked : host.Linked)
    (hF : ∀ n d, F (n + 1) d = G (F n) d)
    (hG : ∀ f g d, (∀ owner, host.enclosing d = some owner → f owner = g owner) →
      G f d = G g d)
    (d : DeclId) : F host.chainBound d = G (F host.chainBound) d := by
  have hsucc : host.EndsWithin (host.chainBound + 1) d :=
    fun owner _ => acyclic.endsWithin linked owner
  rw [← hF]
  exact bounded_congr hF hG _ _ d (acyclic.endsWithin linked d) hsucc

end Bounded

/-- The nearest declaration with metadata is the declaration itself or that of what encloses it. -/
theorem Acyclic.carrier_eq (acyclic : host.Acyclic) (linked : host.Linked) (d : DeclId) :
    host.carrier d =
      if (host.metadata d).isSome then some d else (host.enclosing d).bind host.carrier := by
  apply acyclic.bounded_eq linked (F := host.carrierWithin)
    (G := fun f d => if (host.metadata d).isSome then some d else (host.enclosing d).bind f)
  · intro n d
    rfl
  · intro f g d h
    cases howner : host.enclosing d with
    | none => rfl
    | some owner => simp [h owner howner]

theorem acyclic_of_lt (h : ∀ d owner, host.enclosing d = some owner → owner.index < d.index) :
    host.Acyclic := by
  have hlt {x y : DeclId}
      (hxy : Relation.TransGen (fun owner x => host.enclosing x = some owner) x y) :
      x.index < y.index := by
    induction hxy with
    | single hstep => exact h _ _ hstep
    | tail _ hstep ih => exact ih.trans (h _ _ hstep)
  exact fun d hd => Nat.lt_irrefl _ (hlt hd)

end Correspondence.Host

namespace Correspondence.DeclTree

/-- Whether every declaration comes after the one that encloses it. -/
def isAscending (t : DeclTree) : Bool :=
  t.decls.toList.zipIdx.all fun (d, i) => d.enclosing.all fun owner => owner.index < i

theorem acyclic_of_isAscending {t : DeclTree} (h : t.isAscending) : t.toHost.Acyclic := by
  apply Host.acyclic_of_lt
  intro d owner howner
  obtain ⟨decl, hdecl, howner⟩ := Option.bind_eq_some_iff.mp howner
  have hmem : (decl, d.index) ∈ t.decls.toList.zipIdx := by
    rw [List.mem_zipIdx_iff_getElem?, Array.getElem?_toList]
    exact hdecl
  have hall := List.all_eq_true.mp h _ hmem
  simpa [howner] using hall

end Correspondence.DeclTree
