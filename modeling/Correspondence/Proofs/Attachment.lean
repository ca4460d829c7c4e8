import Correspondence.Proofs.Outcomes

/-!
# Parameters of siblings

Where the parameters of the matched member have names of their own, every parameter of a sibling that
stands for a value parameter is listed with that one and with no other. A sibling has a parameter for
each value parameter without a default.
-/

namespace Correspondence

/-- The name and erased type of a parameter. -/
def Host.parameterKey (host : Host) (x : DeclId) : String × Option JvmType :=
  (host.simpleName x, (host.type x).map JvmType.erased)

theorem Host.sameAs_hostParameter {host : Host} {x y : DeclId} :
    (host.hostParameter x).sameAs (host.hostParameter y) = true ↔
      host.parameterKey x = host.parameterKey y := by
  rw [HostParameter.sameAs_iff, parameterKey, parameterKey, Prod.mk.injEq]
  exact Iff.rfl

namespace MatchRequest

/-- A compiled parameter for a value parameter is required where that one has no default. -/
theorem isRequired_value {request : MatchRequest} {i : Nat} {q : IndexedParameter}
    (hq : request.parameters[i]? = some q) (hdefault : q.hasDefault = false) :
    request.isRequired (request.implicitLeading + i) = true := by
  simp [isRequired, hq, hdefault]

end MatchRequest

namespace MemberMatcher

variable {m : MemberMatcher} {request : MatchRequest} {found : MemberMatch}

namespace Fits

theorem valueParameter?_eq (h : m.Fits request found) {i : Nat} {p : ParameterMatch}
    (hp : found.parameters[i]? = some p) : m.valueParameter? request found.host i = some p.host := by
  have hi : i < request.parameters.length :=
    h.length_parameters ▸ (List.getElem?_eq_some_iff.mp hp).1
  rw [← h.host_parameter hi, hp, Option.map_some]

/-- Value parameters have names of their own where all parameters of the matched member do. -/
theorem eq_of_name (h : m.Fits request found)
    (distinct : ((m.host.parameters found.host).map m.host.simpleName).Nodup) {i j : Nat}
    {p q : ParameterMatch} (hp : found.parameters[i]? = some p) (hq : found.parameters[j]? = some q)
    (hname : m.host.simpleName p.host = m.host.simpleName q.host) : i = j := by
  have hleft : ((m.host.parameters found.host).map m.host.simpleName)[request.implicitLeading + i]? =
      some (m.host.simpleName p.host) := by
    rw [List.getElem?_map]
    exact congrArg _ (h.valueParameter?_eq hp)
  have hright : ((m.host.parameters found.host).map m.host.simpleName)[request.implicitLeading + j]? =
      some (m.host.simpleName q.host) := by
    rw [List.getElem?_map]
    exact congrArg _ (h.valueParameter?_eq hq)
  have hpos := (List.getElem?_inj (List.getElem?_eq_some_iff.mp hleft).1 distinct).mp
    (hleft.trans (hname ▸ hright.symm))
  omega

theorem parameterKey_eq (h : m.Fits request found) {p : ParameterMatch} (hp : p ∈ found.parameters)
    {x : DeclId} (hx : x ∈ p.overloads) : ∃ s ∈ found.overloads, x ∈ m.host.parameters s ∧
      m.host.parameterKey x = m.host.parameterKey p.host := by
  obtain ⟨s, hs, hmem, hsame⟩ := h.same hp hx
  exact ⟨s, hs, hmem, (Host.sameAs_hostParameter.mp hsame).symm⟩

/-- The list of a value parameter has all parameters of siblings with its name and type. -/
theorem mem_overloads_parameter_iff (h : m.Fits request found)
    (distinct : ((m.host.parameters found.host).map m.host.simpleName).Nodup) {p : ParameterMatch}
    (hp : p ∈ found.parameters) {x : DeclId} :
    x ∈ p.overloads ↔ ∃ s ∈ found.overloads, x ∈ m.host.parameters s ∧
      m.host.parameterKey x = m.host.parameterKey p.host := by
  refine ⟨h.parameterKey_eq hp, ?_⟩
  rintro ⟨s, hs, hmem, hkey⟩
  obtain ⟨q, hq, hx⟩ := h.covered hs hmem hp (Host.sameAs_hostParameter.mpr hkey.symm)
  obtain ⟨-, -, -, hkey'⟩ := h.parameterKey_eq hq hx
  obtain ⟨i, hi⟩ := List.mem_iff_getElem?.mp hp
  obtain ⟨j, hj⟩ := List.mem_iff_getElem?.mp hq
  -- Both value parameters have the name of `x`, so they are one.
  obtain rfl := h.eq_of_name distinct hi hj (congrArg Prod.fst (hkey.symm.trans hkey'))
  obtain rfl := Option.some.inj (hi.symm.trans hj)
  exact hx

/-- Every sibling has a parameter with the name and type of a value parameter without a default. -/
theorem exists_parameterKey (h : m.Fits request found) {i : Nat} {p : ParameterMatch}
    (hp : found.parameters[i]? = some p) {q : IndexedParameter}
    (hq : request.parameters[i]? = some q) (hdefault : q.hasDefault = false) {s : DeclId}
    (hs : s ∈ found.overloads) :
    ∃ x ∈ m.host.parameters s, m.host.parameterKey x = m.host.parameterKey p.host := by
  have hkey : (m.host.parameterKeys found.host)[request.implicitLeading + i]? =
      some (m.host.parameterKey p.host) := by
    rw [Host.parameterKeys, List.getElem?_map]
    exact congrArg _ (h.valueParameter?_eq hp)
  have hmem := (h.mem_overloads.mp hs).2.required hkey (request.isRequired_value hq hdefault)
  exact List.mem_map.mp hmem

end Fits

/-- All siblings of the matched member are found. Where its parameters have names of their own, a
value parameter lists exactly the parameters of siblings that have its name and its erased type. None
of them is in two lists, and every sibling has one in the list of every value parameter without a
default. -/
theorem attached_of_find (h : m.find request = .ok found)
    (distinct : ((m.host.parameters found.host).map m.host.simpleName).Nodup) :
    (∀ s, s ∈ found.overloads ↔
      s ∈ m.host.members m.owner m.kind ∧ m.Sibling request found.host s) ∧
    (∀ (i : Nat) (p : ParameterMatch), found.parameters[i]? = some p →
      m.valueParameter? request found.host i = some p.host ∧
      ∀ x, x ∈ p.overloads ↔ ∃ s ∈ found.overloads, x ∈ m.host.parameters s ∧
        m.host.parameterKey x = m.host.parameterKey p.host) ∧
    (∀ (i j : Nat) (p q : ParameterMatch) (x : DeclId), found.parameters[i]? = some p →
      found.parameters[j]? = some q → x ∈ p.overloads → x ∈ q.overloads → i = j) ∧
    ∀ (i : Nat) (q : IndexedParameter), request.parameters[i]? = some q → q.hasDefault = false →
      ∃ p, found.parameters[i]? = some p ∧
        ∀ s ∈ found.overloads, ∃ x ∈ m.host.parameters s, x ∈ p.overloads := by
  have fits := find_eq_ok h
  refine ⟨fun s => fits.mem_overloads, fun i p hp => ⟨fits.valueParameter?_eq hp, fun x => ?_⟩, ?_,
    fun i q hq hdefault => ?_⟩
  · exact fits.mem_overloads_parameter_iff distinct (List.mem_of_getElem? hp)
  · intro i j p q x hp hq hxp hxq
    obtain ⟨-, -, -, hkeyp⟩ := fits.parameterKey_eq (List.mem_of_getElem? hp) hxp
    obtain ⟨-, -, -, hkeyq⟩ := fits.parameterKey_eq (List.mem_of_getElem? hq) hxq
    exact fits.eq_of_name distinct hp hq (congrArg Prod.fst (hkeyp.symm.trans hkeyq))
  · have hi : i < found.parameters.length := by
      rw [fits.length_parameters]
      exact (List.getElem?_eq_some_iff.mp hq).1
    have hp := List.getElem?_eq_getElem hi
    refine ⟨_, hp, fun s hs => ?_⟩
    obtain ⟨x, hx, hkey⟩ := fits.exists_parameterKey hp hq hdefault hs
    exact ⟨x, hx, (fits.mem_overloads_parameter_iff distinct (List.mem_of_getElem? hp)).mpr
      ⟨s, hs, hx, hkey⟩⟩

private theorem find_suspending : ofSuspending.find (requestOfSuspending "y") = .ok
    { host := ⟨2⟩, overloads := [⟨7⟩], parameters := [⟨⟨4⟩, [⟨9⟩]⟩, ⟨⟨5⟩, []⟩] } := by
  rfl

/-- The parameter `x` of the sibling is listed with the first value parameter, behind the receiver of
the matched method; the receiver and the continuation of the sibling are listed nowhere. -/
theorem attached_suspending :
    ∃ found, ofSuspending.find (requestOfSuspending "y") = .ok found ∧
      ((ofSuspending.host.parameters found.host).map ofSuspending.host.simpleName).Nodup ∧
      ∃ p, found.parameters[0]? = some p ∧ (⟨9⟩ : DeclId) ∈ p.overloads ∧
        (⟨8⟩ : DeclId) ∉ p.overloads ∧ (⟨10⟩ : DeclId) ∉ p.overloads := by
  have hdistinct : ((ofSuspending.host.parameters ⟨2⟩).map ofSuspending.host.simpleName).Nodup := by
    decide
  obtain ⟨-, hlists, -, hall⟩ := attached_of_find find_suspending hdistinct
  obtain ⟨p, hp, -⟩ := hall 0 _ rfl rfl
  obtain ⟨hhost, hmem⟩ := hlists 0 p hp
  have hkey : ofSuspending.host.parameterKey p.host = ("x", some .int) := by
    rw [← Option.some.inj (show some (⟨4⟩ : DeclId) = some p.host from hhost)]
    decide
  simp only [hkey] at hmem
  refine ⟨_, find_suspending, hdistinct, p, hp, (hmem ⟨9⟩).mpr ⟨⟨7⟩, by decide⟩, ?_, ?_⟩
  · intro h
    obtain ⟨-, -, -, hself⟩ := (hmem ⟨8⟩).mp h
    exact absurd hself (by decide)
  · intro h
    obtain ⟨-, -, -, hnext⟩ := (hmem ⟨10⟩).mp h
    exact absurd hnext (by decide)

end MemberMatcher

end Correspondence
