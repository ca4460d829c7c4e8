import Correspondence.Proofs.Closed
import Correspondence.Proofs.TypeNames

/-!
# Metadata from fixtures is closed

Every step that builds metadata from a fixture refers only to strings that it has met and to type
parameters that are in scope, and gives new numbers to those that it declares. So metadata from a fixture
is closed.
-/

namespace Correspondence

theorem StringTable.Has.of_grown {strings strings' : StringTable} {id : StringId}
    (h : strings.Has id) (hgrown : strings.toList <+: strings'.toList) : strings'.Has id := by
  obtain ⟨text, htext⟩ := h
  obtain ⟨added, hadded⟩ := hgrown
  have hget := get_eq_ok_iff.mp htext
  refine ⟨text, get_eq_ok_iff.mpr ?_⟩
  rwa [← hadded, List.getElem?_append_left (List.getElem?_eq_some_iff.mp hget).1]

theorem Reference.Holds.of_grown {strings strings' : StringTable} {ids : List Nat} {r : Reference}
    (h : r.Holds strings ids) (hgrown : strings.toList <+: strings'.toList) : r.Holds strings' ids := by
  cases r with
  | string id => exact StringTable.Has.of_grown h hgrown
  | typeParameter id => exact h

namespace Fixture

/-- The numbers of the type parameters in scope. -/
def Names.ids (names : Names) : List Nat :=
  names.scope.map Prod.snd

/-- Whether names come from others by a step that refers to what is there, declares type parameters with
the next numbers, and leaves the scope as it was. -/
structure Names.Yields (names names' : Names) (references : List Reference) (declared : List Nat) :
    Prop where
  strings : names.strings.toList <+: names'.strings.toList
  scope : names'.scope = names.scope
  declares : declared = List.range' names.nextTypeParameter declared.length
  nextTypeParameter : names'.nextTypeParameter = names.nextTypeParameter + declared.length
  holds : ∀ r ∈ references, r.Holds names'.strings names'.ids

/-- Whether names come from others by bringing type parameters into scope, in all of whose bounds they
are in scope. -/
structure Names.Declares (names names' : Names) (params : List TypeParameterDescriptor) : Prop where
  strings : names.strings.toList <+: names'.strings.toList
  declares : params.map TypeParameterDescriptor.id =
    List.range' names.nextTypeParameter params.length
  nextTypeParameter : names'.nextTypeParameter = names.nextTypeParameter + params.length
  ids : names'.ids = names.ids ++ params.map TypeParameterDescriptor.id
  holds : ∀ r ∈ params.flatMap TypeParameterDescriptor.references,
    r.Holds names'.strings names'.ids

namespace Names

variable {names names' names'' : Names} {references references' : List Reference}
  {declared declared' : List Nat}

theorem Extends.yields (h : names.Extends names')
    (hholds : ∀ r ∈ references, r.Holds names'.strings names'.ids) : names.Yields names' references [] :=
  ⟨h.strings, h.scope, rfl, h.nextTypeParameter, hholds⟩

theorem Yields.refl (names : Names) : names.Yields names [] [] :=
  (Extends.refl names).yields (by simp)

theorem Yields.ids_eq (h : names.Yields names' references declared) : names'.ids = names.ids :=
  congrArg (List.map Prod.snd) h.scope

/-- What is there stays there. -/
theorem Yields.holds_of (h : names.Yields names' references declared) {r : Reference}
    (hr : r.Holds names.strings names.ids) : r.Holds names'.strings names'.ids := by
  rw [h.ids_eq]
  exact hr.of_grown h.strings

theorem Yields.trans (h : names.Yields names' references declared)
    (h' : names'.Yields names'' references' declared') :
    names.Yields names'' (references ++ references') (declared ++ declared') where
  strings := h.strings.trans h'.strings
  scope := h'.scope.trans h.scope
  declares := by
    rw [List.length_append, ← List.range'_append_1, ← h.declares, ← h.nextTypeParameter,
      ← h'.declares]
  nextTypeParameter := by
    rw [h'.nextTypeParameter, h.nextTypeParameter, List.length_append, Nat.add_assoc]
  holds := by
    intro r hr
    rcases List.mem_append.mp hr with hr | hr
    · exact h'.holds_of (h.holds r hr)
    · exact h'.holds r hr

theorem Yields.of_subset (h : names.Yields names' references declared)
    (hsub : references' ⊆ references) : names.Yields names' references' declared :=
  ⟨h.strings, h.scope, h.declares, h.nextTypeParameter, fun r hr => h.holds r (hsub hr)⟩

/-- What is done where type parameters are in scope, and after which they leave it, refers to nothing else
that is not there. -/
theorem Declares.close {params : List TypeParameterDescriptor} (h : names.Declares names' params)
    (h' : names'.Yields names'' references []) :
    names.Yields { names'' with scope := names.scope }
      ((params.flatMap TypeParameterDescriptor.references ++ references).filter
        (· ∉ (params.map TypeParameterDescriptor.id).map .typeParameter))
      (params.map TypeParameterDescriptor.id) where
  strings := h.strings.trans h'.strings
  scope := rfl
  declares := by rw [List.length_map, h.declares]
  nextTypeParameter := by
    rw [List.length_map, h'.nextTypeParameter, h.nextTypeParameter, List.length_nil, Nat.add_zero]
  holds := by
    intro r hr
    obtain ⟨hr, hfree⟩ := List.mem_filter.mp hr
    have hids : names''.ids = names.ids ++ params.map TypeParameterDescriptor.id :=
      h'.ids_eq.trans h.ids
    have hholds : r.Holds names''.strings names''.ids := by
      rcases List.mem_append.mp hr with hr | hr
      · exact h'.holds_of (h.holds r hr)
      · exact h'.holds r hr
    rw [hids] at hholds
    cases r with
    | string id => exact hholds
    | typeParameter id =>
      rcases List.mem_append.mp hholds with hid | hid
      · exact hid
      · exact absurd (List.mem_map_of_mem hid) (of_decide_eq_true hfree)

theorem Refers.holds {name : String} {c : Classifier} (h : names.Refers name c) :
    c.reference.Holds names.strings names.ids := by
  cases h with
  | typeParameter h =>
    obtain ⟨outer, inner, hscope, -⟩ := h
    simp [Classifier.reference, Reference.Holds, Names.ids, hscope]
  | named hscope h => exact ⟨name, StringTable.get_of_intern h⟩

mutual
theorem Denotes.holds : ∀ {written : TypeText} {type : TypeRef}, names.Denotes written type →
    ∀ r ∈ type.references, r.Holds names.strings names.ids
  | _, _, .mk hname h => by
    rw [TypeRef.references]
    exact List.forall_mem_cons.mpr ⟨hname.holds, h.holds⟩
theorem DenotesArguments.holds : ∀ {written : List ArgumentText} {arguments : List Projection},
    names.DenotesArguments written arguments →
      ∀ r ∈ Projection.allReferences arguments, r.Holds names.strings names.ids
  | _, _, .nil => by simp [Projection.allReferences]
  | _, _, .star h => h.holds
  | _, _, .type hfirst h => by
    rw [Projection.allReferences]
    exact List.forall_mem_append.mpr ⟨hfirst.holds, h.holds⟩
end

end Names

namespace NamesM

open Names

variable {names names' : Names}

/-! ## Steps that declare nothing -/

theorem intern_yields {text : String} {id : StringId} (h : intern text names = .ok (id, names')) :
    names.Yields names' [.string id] [] := by
  obtain ⟨hgrown, hid⟩ := extends_of_intern h
  apply hgrown.yields
  intro r hr
  obtain rfl := List.mem_singleton.mp hr
  exact ⟨text, StringTable.get_of_intern hid⟩

theorem type_yields {text : String} {ref : TypeRef} (h : type text names = .ok (ref, names')) :
    names.Yields names' ref.references [] := by
  obtain ⟨hgrown, written, hdenotes, -⟩ := exists_written h
  exact hgrown.yields hdenotes.holds

theorem map_some_eq_ok {α : Type} {x : NamesM α} {a? : Option α}
    (h : (some <$> x) names = .ok (a?, names')) : ∃ a, x names = .ok (a, names') ∧ a? = some a := by
  rw [map_eq_pure_bind] at h
  obtain ⟨a, _, ha, h⟩ := bind_eq_ok_iff.mp h
  obtain ⟨rfl, rfl⟩ := pure_eq_ok_iff.mp h
  exact ⟨a, ha, rfl⟩

theorem intern?_yields {text? : Option String} {id? : Option StringId}
    (h : intern? text? names = .ok (id?, names')) : names.Yields names' (id?.toList.map .string) [] := by
  cases text? with
  | none =>
    obtain ⟨rfl, rfl⟩ := pure_eq_ok_iff.mp h
    exact .refl _
  | some text =>
    obtain ⟨id, hid, rfl⟩ := map_some_eq_ok h
    exact intern_yields hid

theorem type?_yields {text? : Option String} {ref? : Option TypeRef}
    (h : type? text? names = .ok (ref?, names')) :
    names.Yields names' (ref?.toList.flatMap TypeRef.references) [] := by
  cases text? with
  | none =>
    obtain ⟨rfl, rfl⟩ := pure_eq_ok_iff.mp h
    exact .refl _
  | some text =>
    obtain ⟨ref, href, rfl⟩ := map_some_eq_ok h
    simpa using type_yields href

theorem methodSignature_yields {text : String} {signature : MethodSignature}
    (h : methodSignature text names = .ok (signature, names')) :
    names.Yields names' signature.references [] := by
  unfold methodSignature at h
  cases hcut : Text.cutFirst? '(' text.toList with
  | none =>
    rw [hcut] at h
    cases h
  | some cut =>
    rw [hcut] at h
    obtain ⟨name, _, hname, h⟩ := bind_eq_ok_iff.mp h
    obtain ⟨desc, _, hdesc, h⟩ := bind_eq_ok_iff.mp h
    obtain ⟨rfl, rfl⟩ := pure_eq_ok_iff.mp h
    exact (intern_yields hname).trans (intern_yields hdesc)

theorem methodSignature?_yields {text? : Option String} {signature? : Option MethodSignature}
    (h : methodSignature? text? names = .ok (signature?, names')) :
    names.Yields names' (signature?.toList.flatMap MethodSignature.references) [] := by
  cases text? with
  | none =>
    obtain ⟨rfl, rfl⟩ := pure_eq_ok_iff.mp h
    exact .refl _
  | some text =>
    obtain ⟨signature, hsignature, rfl⟩ := map_some_eq_ok h
    simpa using methodSignature_yields hsignature

theorem mapM_cons_eq_ok {α β : Type} {f : α → NamesM β} {x : α} {l : List α} {all : List β}
    (h : (x :: l).mapM f names = .ok (all, names')) :
    ∃ y ys next, f x names = .ok (y, next) ∧ l.mapM f next = .ok (ys, names') ∧ all = y :: ys := by
  rw [List.mapM_cons] at h
  obtain ⟨y, next, hy, h⟩ := bind_eq_ok_iff.mp h
  obtain ⟨ys, _, hys, h⟩ := bind_eq_ok_iff.mp h
  obtain ⟨rfl, rfl⟩ := pure_eq_ok_iff.mp h
  exact ⟨y, ys, next, hy, hys, rfl⟩

/-- Steps for each element of a list yield what all of them do. -/
theorem mapM_yields {α β : Type} {f : α → NamesM β} {refs : β → List Reference}
    {declared : β → List Nat} {l : List α} {ys : List β}
    (hf : ∀ x y names names', f x names = .ok (y, names') →
      names.Yields names' (refs y) (declared y))
    (h : l.mapM f names = .ok (ys, names')) :
    names.Yields names' (ys.flatMap refs) (ys.flatMap declared) := by
  induction l generalizing names ys with
  | nil =>
    obtain ⟨rfl, rfl⟩ := pure_eq_ok_iff.mp h
    exact .refl _
  | cons x l ih =>
    obtain ⟨y, ys, next, hy, hys, rfl⟩ := mapM_cons_eq_ok h
    exact (hf x y _ _ hy).trans (ih hys)

theorem mapM_yields_nil {α β : Type} {f : α → NamesM β} {refs : β → List Reference} {l : List α}
    {ys : List β}
    (hf : ∀ x y names names', f x names = .ok (y, names') → names.Yields names' (refs y) [])
    (h : l.mapM f names = .ok (ys, names')) : names.Yields names' (ys.flatMap refs) [] := by
  have hyields := mapM_yields hf h
  rwa [List.flatMap_eq_nil_iff.mpr fun _ _ => rfl] at hyields

/-! ## Declarations -/

theorem parameter_yields {spec : ParameterSpec} {p : ParameterDescriptor}
    (h : parameter spec names = .ok (p, names')) : names.Yields names' p.references [] := by
  obtain ⟨name, _, hname, h⟩ := bind_eq_ok_iff.mp h
  obtain ⟨type, _, htype, h⟩ := bind_eq_ok_iff.mp h
  obtain ⟨element, _, helement, h⟩ := bind_eq_ok_iff.mp h
  obtain ⟨rfl, rfl⟩ := pure_eq_ok_iff.mp h
  exact (intern_yields hname).trans ((type_yields htype).trans (type?_yields helement))

theorem constructor_yields {spec : ConstructorSpec} {c : ConstructorDescriptor}
    (h : constructor spec names = .ok (c, names')) : names.Yields names' c.references [] := by
  obtain ⟨params, _, hparams, h⟩ := bind_eq_ok_iff.mp h
  obtain ⟨signature, _, hsignature, h⟩ := bind_eq_ok_iff.mp h
  obtain ⟨rfl, rfl⟩ := pure_eq_ok_iff.mp h
  exact (mapM_yields_nil (fun _ _ _ _ => parameter_yields) hparams).trans
    (methodSignature?_yields hsignature)

theorem field?_yields {desc name : Option String} {field? : Option FieldSignature}
    (h : NamesM.field? desc name names = .ok (field?, names')) :
    names.Yields names' (field?.toList.flatMap FieldSignature.references) [] := by
  cases desc with
  | none =>
    obtain ⟨rfl, rfl⟩ := pure_eq_ok_iff.mp h
    exact .refl _
  | some desc =>
    obtain ⟨desc, _, hdesc, h⟩ := bind_eq_ok_iff.mp h
    obtain ⟨name, _, hname, h⟩ := bind_eq_ok_iff.mp h
    obtain ⟨rfl, rfl⟩ := pure_eq_ok_iff.mp h
    simpa [FieldSignature.references] using (intern_yields hdesc).trans (intern?_yields hname)

theorem property_yields {spec : PropertySpec} {p : PropertyDescriptor}
    (h : property spec names = .ok (p, names')) : names.Yields names' p.references [] := by
  obtain ⟨name, _, hname, h⟩ := bind_eq_ok_iff.mp h
  obtain ⟨type, _, htype, h⟩ := bind_eq_ok_iff.mp h
  obtain ⟨receiver, _, hreceiver, h⟩ := bind_eq_ok_iff.mp h
  obtain ⟨field, _, hfield, h⟩ := bind_eq_ok_iff.mp h
  obtain ⟨getter, _, hgetter, h⟩ := bind_eq_ok_iff.mp h
  obtain ⟨setter, _, hsetter, h⟩ := bind_eq_ok_iff.mp h
  obtain ⟨holder, _, hholder, h⟩ := bind_eq_ok_iff.mp h
  obtain ⟨rfl, rfl⟩ := pure_eq_ok_iff.mp h
  have htypes := (type_yields htype).trans (type?_yields hreceiver)
  have haccessors := (methodSignature?_yields hgetter).trans
    ((methodSignature?_yields hsetter).trans (methodSignature?_yields hholder))
  have hall := (intern_yields hname).trans (htypes.trans ((field?_yields hfield).trans haccessors))
  simpa [PropertyDescriptor.references, PropertySignature.references] using hall

/-! ## Type parameters -/

theorem declare_eq_ok {text : String} {declared : Nat × String × Option String}
    (h : declare text names = .ok (declared, names')) :
    declared.1 = names.nextTypeParameter ∧ names'.strings = names.strings ∧
      names'.nextTypeParameter = names.nextTypeParameter + 1 ∧ names'.ids = names.ids ++ [declared.1] := by
  obtain ⟨rfl, rfl⟩ := Prod.mk.inj (Except.ok.inj h)
  exact ⟨rfl, rfl, rfl, List.map_append⟩

theorem mapM_declare {texts : List String} {declared : List (Nat × String × Option String)}
    (h : texts.mapM declare names = .ok (declared, names')) :
    declared.map Prod.fst = List.range' names.nextTypeParameter declared.length ∧
      names'.strings = names.strings ∧
      names'.nextTypeParameter = names.nextTypeParameter + declared.length ∧
      names'.ids = names.ids ++ declared.map Prod.fst := by
  induction texts generalizing names declared with
  | nil =>
    obtain ⟨rfl, rfl⟩ := pure_eq_ok_iff.mp h
    simp
  | cons text texts ih =>
    obtain ⟨first, rest, next, hfirst, hrest, rfl⟩ := mapM_cons_eq_ok h
    obtain ⟨hid, hstrings, hnext, hids⟩ := declare_eq_ok hfirst
    obtain ⟨hids', hstrings', hnext', hscope⟩ := ih hrest
    refine ⟨?_, hstrings'.trans hstrings, ?_, ?_⟩
    · rw [List.map_cons, List.length_cons, List.range'_succ, hids', hnext, hid]
    · rw [hnext', hnext, List.length_cons]
      omega
    · rw [hscope, hids, List.append_assoc]
      rfl

theorem typeParameter_yields {declared : Nat × String × Option String} {p : TypeParameterDescriptor}
    (h : typeParameter declared names = .ok (p, names')) :
    p.id = declared.1 ∧ names.Yields names' p.references [] := by
  obtain ⟨id, name, bound⟩ := declared
  obtain ⟨name, _, hname, h⟩ := bind_eq_ok_iff.mp h
  obtain ⟨bound, _, hbound, h⟩ := bind_eq_ok_iff.mp h
  obtain ⟨rfl, rfl⟩ := pure_eq_ok_iff.mp h
  exact ⟨rfl, (intern_yields hname).trans (type?_yields hbound)⟩

theorem map_id_of_mapM {declared : List (Nat × String × Option String)}
    {params : List TypeParameterDescriptor} (h : declared.mapM typeParameter names = .ok (params, names')) :
    params.map TypeParameterDescriptor.id = declared.map Prod.fst := by
  induction declared generalizing names params with
  | nil =>
    obtain ⟨rfl, rfl⟩ := pure_eq_ok_iff.mp h
    rfl
  | cons first declared ih =>
    obtain ⟨p, rest, next, hp, hrest, rfl⟩ := mapM_cons_eq_ok h
    rw [List.map_cons, List.map_cons, (typeParameter_yields hp).1, ih hrest]

theorem typeParameters_declares {texts : List String} {params : List TypeParameterDescriptor}
    (h : typeParameters texts names = .ok (params, names')) : names.Declares names' params := by
  obtain ⟨declared, _, hdeclared, h⟩ := bind_eq_ok_iff.mp h
  obtain ⟨hrange, hstrings, hnext, hids⟩ := mapM_declare hdeclared
  -- All of them are in scope before the first bound is read, so bounds may refer forward.
  have hparams := map_id_of_mapM h
  have hlength : params.length = declared.length := by simpa using congrArg List.length hparams
  have hyields := mapM_yields_nil (fun _ _ _ _ h => (typeParameter_yields h).2) h
  exact {
    strings := hstrings ▸ hyields.strings
    declares := by rw [hparams, hlength, hrange]
    nextTypeParameter := by rw [hyields.nextTypeParameter, hnext, hlength, List.length_nil, Nat.add_zero]
    ids := by rw [hyields.ids_eq, hids, hparams]
    holds := hyields.holds }

theorem function_yields {spec : FunctionSpec} {f : FunctionDescriptor}
    (h : function spec names = .ok (f, names')) : names.Yields names' f.freeReferences f.declared := by
  obtain ⟨_, _, hget, hbody⟩ := bind_eq_ok_iff.mp h
  obtain ⟨rfl, rfl⟩ := pure_eq_ok_iff.mp hget
  obtain ⟨typeParameters, _, htypeParameters, h⟩ := bind_eq_ok_iff.mp hbody
  obtain ⟨returnType, _, hreturnType, h⟩ := bind_eq_ok_iff.mp h
  obtain ⟨name, _, hname, h⟩ := bind_eq_ok_iff.mp h
  obtain ⟨receiver, _, hreceiver, h⟩ := bind_eq_ok_iff.mp h
  obtain ⟨params, _, hparams, h⟩ := bind_eq_ok_iff.mp h
  obtain ⟨signature, _, hsignature, h⟩ := bind_eq_ok_iff.mp h
  obtain ⟨_, _, hmodify, h⟩ := bind_eq_ok_iff.mp h
  obtain ⟨-, rfl⟩ := Prod.mk.inj (Except.ok.inj hmodify)
  obtain ⟨rfl, rfl⟩ := pure_eq_ok_iff.mp h
  have htypes := (type_yields hreturnType).trans ((intern_yields hname).trans (type?_yields hreceiver))
  have hrest := htypes.trans ((mapM_yields_nil (fun _ _ _ _ => parameter_yields) hparams).trans
    (methodSignature?_yields hsignature))
  -- Only the order differs from that in which a function lists what it refers to.
  apply ((typeParameters_declares htypeParameters).close hrest).of_subset
  intro r hr
  simp only [FunctionDescriptor.freeReferences, FunctionDescriptor.references, FunctionDescriptor.declared,
    List.mem_filter, List.mem_append, List.mem_cons] at hr ⊢
  refine ⟨?_, hr.2⟩
  grind

/-! ## Classes and files -/

theorem ofClass_builds {spec : ClassSpec} {c : ClassDescriptor}
    (h : ofClass spec names = .ok (c, names')) : ∃ start inner rest,
      names.Yields start [.string c.qualifiedName] [] ∧ start.Declares inner c.typeParameters ∧
      inner.Yields names' rest (c.functions.flatMap FunctionDescriptor.declared) ∧
      c.scopedReferences ⊆ .string c.qualifiedName ::
        (c.typeParameters.flatMap TypeParameterDescriptor.references ++ rest) := by
  obtain ⟨qualifiedName, start, hname, h⟩ := bind_eq_ok_iff.mp h
  obtain ⟨typeParameters, inner, htypeParameters, h⟩ := bind_eq_ok_iff.mp h
  obtain ⟨companionName, _, hcompanion, h⟩ := bind_eq_ok_iff.mp h
  obtain ⟨moduleName, _, hmodule, h⟩ := bind_eq_ok_iff.mp h
  obtain ⟨constructors, _, hconstructors, h⟩ := bind_eq_ok_iff.mp h
  obtain ⟨functions, _, hfunctions, h⟩ := bind_eq_ok_iff.mp h
  obtain ⟨properties, _, hproperties, h⟩ := bind_eq_ok_iff.mp h
  obtain ⟨enumEntries, _, hentries, h⟩ := bind_eq_ok_iff.mp h
  obtain ⟨rfl, rfl⟩ := pure_eq_ok_iff.mp h
  have hheader := (intern?_yields hcompanion).trans ((intern?_yields hmodule).trans
    (mapM_yields_nil (fun _ _ _ _ => constructor_yields) hconstructors))
  have hfooter := (mapM_yields_nil (fun _ _ _ _ => property_yields) hproperties).trans
    (mapM_yields_nil (fun _ _ _ _ => intern_yields) hentries)
  have hall := hheader.trans ((mapM_yields (fun _ _ _ _ => function_yields) hfunctions).trans hfooter)
  simp only [List.append_nil, List.nil_append] at hall
  refine ⟨start, inner, _, intern_yields hname, typeParameters_declares htypeParameters, hall, ?_⟩
  intro r hr
  simp only [ClassDescriptor.scopedReferences, List.mem_cons, List.mem_append, List.mem_flatMap] at hr ⊢
  grind

theorem ofFacade_yields {spec : FacadeSpec} {p : PackageDescriptor}
    (h : ofFacade spec names = .ok (p, names')) :
    names.Yields names' p.scopedReferences (p.functions.flatMap FunctionDescriptor.declared) := by
  obtain ⟨moduleName, _, hmodule, h⟩ := bind_eq_ok_iff.mp h
  obtain ⟨functions, _, hfunctions, h⟩ := bind_eq_ok_iff.mp h
  obtain ⟨properties, _, hproperties, h⟩ := bind_eq_ok_iff.mp h
  obtain ⟨rfl, rfl⟩ := pure_eq_ok_iff.mp h
  have hall := (intern?_yields hmodule).trans ((mapM_yields (fun _ _ _ _ => function_yields) hfunctions).trans
    (mapM_yields_nil (fun _ _ _ _ => property_yields) hproperties))
  simpa [PackageDescriptor.scopedReferences] using hall

end NamesM

open Names NamesM

/-- Metadata from a class is closed. -/
theorem ClassSpec.isClosed (spec : ClassSpec) {m : ClassMetadata} (h : spec.metadata = .ok m) :
    m.IsClosed := by
  obtain ⟨⟨c, names'⟩, hrun, h⟩ := Except.bind_eq_ok_iff.mp h
  obtain rfl := Except.ok.inj h
  obtain ⟨start, inner, rest, hname, hdeclares, hrest, hsub⟩ := ofClass_builds hrun
  have hstart : start.ids = [] := hname.ids_eq
  have hinner : inner.ids = c.declared := by rw [hdeclares.ids, hstart]; rfl
  have hids : names'.ids = c.declared := hrest.ids_eq.trans hinner
  apply ClassMetadata.isClosed_of_holds
  · intro r hr
    show r.Holds names'.strings c.declared
    rw [← hids]
    rcases List.mem_cons.mp (hsub hr) with rfl | hr
    · exact hrest.holds_of ((hname.holds _ List.mem_cons_self).of_grown hdeclares.strings)
    · rcases List.mem_append.mp hr with hr | hr
      · exact hrest.holds_of (hdeclares.holds r hr)
      · exact hrest.holds r hr
  · have hfunctions := hrest.declares
    have hown : c.declared = List.range' start.nextTypeParameter c.typeParameters.length :=
      hdeclares.declares
    show (c.declared ++ c.functions.flatMap FunctionDescriptor.declared).Nodup
    rw [hfunctions, hown, hdeclares.nextTypeParameter, List.range'_append_1]
    exact List.nodup_range'

/-- Metadata from a file is closed. -/
theorem FacadeSpec.isClosed (spec : FacadeSpec) {m : PackageMetadata} (h : spec.metadata = .ok m) :
    m.IsClosed := by
  obtain ⟨⟨p, names'⟩, hrun, h⟩ := Except.bind_eq_ok_iff.mp h
  obtain rfl := Except.ok.inj h
  have hyields := ofFacade_yields hrun
  have hids : names'.ids = [] := hyields.ids_eq
  apply PackageMetadata.isClosed_of_holds
  · intro r hr
    show r.Holds names'.strings []
    rw [← hids]
    exact hyields.holds r hr
  · show (p.functions.flatMap FunctionDescriptor.declared).Nodup
    rw [hyields.declares]
    exact List.nodup_range'

/-- Metadata from a fixture is closed, so the index of a class or file does not fail for it. -/
theorem isClosed_of_metadata :
    (∀ (spec : ClassSpec) (m : ClassMetadata), spec.metadata = .ok m → m.IsClosed ∧
      ∀ owner e, DescriptorIndex.ofClass owner m ≠ .error (.metadata e)) ∧
    ∀ (spec : FacadeSpec) (m : PackageMetadata), spec.metadata = .ok m → m.IsClosed ∧
      ∀ owner e, DescriptorIndex.ofPackage owner m ≠ .error (.metadata e) := by
  constructor
  · intro spec m h
    exact ⟨spec.isClosed h, (spec.isClosed h).metadataSafe⟩
  · intro spec m h
    exact ⟨spec.isClosed h, (spec.isClosed h).metadataSafe⟩

/-- A class with a bound that refers to a later type parameter, and with a function that has one too. -/
def ClassSpec.sorted : ClassSpec where
  name := "p/Sorted"
  kind := .regular
  typeParams := ["T : kotlin/Comparable<U>", "U"]
  constructors := [{ params := [{ name := "items", type := "kotlin/Array<T>", vararg := some "T" }] }]
  functions := [{ name := "zip", returns := "p/Sorted<R, *>?", typeParams := ["R : T"],
                  receiver := some "U", params := [{ name := "other", type := "p/Sorted<R, U>" }] }]
  properties := [{ name := "first", type := "T?", getter := some "getFirst()Ljava/lang/Object;" }]

/-- A file with a function that has a type parameter. -/
def FacadeSpec.sorting : FacadeSpec where
  functions := [{ name := "sort", returns := "kotlin/Unit", typeParams := ["T"],
                  params := [{ name := "items", type := "kotlin/Array<T>" }] }]

theorem isClosed_sorted :
    (∃ m, ClassSpec.sorted.metadata = .ok m ∧ m.IsClosed ∧
      DescriptorIndex.ofClass "p.Sorted" m ≠ .error (.metadata (.unknownTypeParameter 2))) ∧
    ∃ m, FacadeSpec.sorting.metadata = .ok m ∧ m.IsClosed ∧
      DescriptorIndex.ofPackage "p.SortedKt" m ≠ .error (.metadata (.unknownTypeParameter 0)) := by
  have hclass : ClassSpec.sorted.metadata.toOption.isSome := by decide +kernel
  have hfile : FacadeSpec.sorting.metadata.toOption.isSome := by decide +kernel
  obtain ⟨m, hm⟩ := Option.isSome_iff_exists.mp hclass
  obtain ⟨m', hm'⟩ := Option.isSome_iff_exists.mp hfile
  have hm := Except.toOption_eq_some_iff.mp hm
  have hm' := Except.toOption_eq_some_iff.mp hm'
  obtain ⟨hclosed, hindex⟩ := isClosed_of_metadata.1 ClassSpec.sorted m hm
  obtain ⟨hclosed', hindex'⟩ := isClosed_of_metadata.2 FacadeSpec.sorting m' hm'
  exact ⟨⟨m, hm, hclosed, hindex _ _⟩, m', hm', hclosed', hindex' _ _⟩

end Fixture

end Correspondence
