import Correspondence.Proofs.Encoding
import Correspondence.Proofs.EnumStart

/-!
# Decoding signatures

The descriptors of types need no separators to be told apart. So a signature says how many parameters
its member has, provided that no class name contains a semicolon, which ends a name, or an opening
parenthesis, which starts the parameters.
-/

namespace Correspondence

/-- Whether a class name can be told apart from what follows it in a signature. -/
def ClassName.IsPlain (name : String) : Prop :=
  ';' ∉ name.toList ∧ '(' ∉ name.toList

instance (name : String) : Decidable (ClassName.IsPlain name) :=
  inferInstanceAs (Decidable (_ ∧ _))

namespace Descriptor

/-- The characters that are descriptors by themselves. -/
def tags : List Char :=
  ['V', 'Z', 'B', 'C', 'S', 'I', 'J', 'F', 'D']

/-- Whether a text is the descriptor of a type, or of no value. -/
inductive IsType : List Char → Prop
  | tag {c : Char} (hc : c ∈ tags) : IsType [c]
  | reference {name : List Char} (hend : ';' ∉ name) (hstart : '(' ∉ name) :
      IsType ('L' :: (name ++ [';']))
  | array {element : List Char} (h : IsType element) : IsType ('[' :: element)

theorem IsType.exists_cons {a : List Char} (h : IsType a) : ∃ c rest, a = c :: rest ∧ c ≠ ')' := by
  cases h with
  | tag hc =>
    refine ⟨_, _, rfl, ?_⟩
    rintro rfl
    revert hc
    decide
  | reference hend hstart => exact ⟨_, _, rfl, by decide⟩
  | array h => exact ⟨_, _, rfl, by decide⟩

theorem IsType.not_mem {a : List Char} (h : IsType a) : '(' ∉ a := by
  induction h with
  | tag hc =>
    intro hmem
    obtain rfl := List.mem_singleton.mp hmem
    revert hc
    decide
  | reference hend hstart => simpa using hstart
  | array h ih => simpa using ih

/-- No descriptor is the start of another one. -/
theorem IsType.append_inj {a b s t : List Char} (ha : IsType a) (hb : IsType b)
    (h : a ++ s = b ++ t) : a = b ∧ s = t := by
  have hL : 'L' ∉ tags := by decide
  have hbracket : '[' ∉ tags := by decide
  induction ha generalizing b with
  | tag hc =>
    cases hb with
    | tag hd =>
      obtain ⟨rfl, rfl⟩ := List.cons.inj h
      exact ⟨rfl, rfl⟩
    | reference => exact absurd ((List.cons.inj h).1 ▸ hc) hL
    | array => exact absurd ((List.cons.inj h).1 ▸ hc) hbracket
  | reference hend hstart =>
    cases hb with
    | tag hd => exact absurd ((List.cons.inj h).1 ▸ hd) hL
    | reference hend' hstart' =>
      -- Both names end at the first semicolon.
      have hnames := (List.cons.inj h).2
      simp only [List.append_eq, List.append_assoc, List.singleton_append] at hnames
      have hcut' := Text.cutFirst?_eq_some_iff.mpr ⟨hend', hnames⟩
      have hcut := Text.cutFirst?_eq_some_iff.mpr ⟨hend, Eq.refl (_ ++ ';' :: s)⟩
      obtain ⟨rfl, rfl⟩ := Prod.mk.inj (Option.some.inj (hcut.symm.trans hcut'))
      exact ⟨rfl, rfl⟩
    | array => exact absurd (List.cons.inj h).1 (by decide)
  | array ha ih =>
    cases hb with
    | tag hd => exact absurd ((List.cons.inj h).1 ▸ hd) hbracket
    | reference => exact absurd (List.cons.inj h).1 (by decide)
    | array hb =>
      obtain ⟨rfl, rfl⟩ := ih hb (List.cons.inj h).2
      exact ⟨rfl, rfl⟩

/-- Descriptors one after the other, up to a closing parenthesis, are told apart. -/
theorem flatten_append_inj {as bs : List (List Char)} {s t : List Char} (has : ∀ a ∈ as, IsType a)
    (hbs : ∀ b ∈ bs, IsType b) (h : as.flatten ++ ')' :: s = bs.flatten ++ ')' :: t) :
    as = bs ∧ s = t := by
  induction as generalizing bs with
  | nil =>
    cases bs with
    | nil => exact ⟨rfl, (List.cons.inj h).2⟩
    | cons b bs =>
      obtain ⟨c, rest, rfl, hc⟩ := (hbs b List.mem_cons_self).exists_cons
      exact absurd (List.cons.inj h).1.symm hc
  | cons a as ih =>
    obtain ⟨ha, has'⟩ := List.forall_mem_cons.mp has
    cases bs with
    | nil =>
      obtain ⟨c, rest, rfl, hc⟩ := ha.exists_cons
      exact absurd (List.cons.inj h).1 hc
    | cons b bs =>
      obtain ⟨hb, hbs'⟩ := List.forall_mem_cons.mp hbs
      simp only [List.flatten_cons, List.append_assoc] at h
      obtain ⟨rfl, hrest⟩ := ha.append_inj hb h
      obtain ⟨rfl, rfl⟩ := ih has' hbs' hrest
      exact ⟨rfl, rfl⟩

/-- A text is cut at the last of some character in one way only. -/
private theorem append_cons_inj {c : Char} {x y u v : List Char} (hu : c ∉ u) (hv : c ∉ v)
    (h : x ++ c :: u = y ++ c :: v) : x = y ∧ u = v := by
  suffices hrest : u = v by
    subst hrest
    exact ⟨List.append_cancel_right h, rfl⟩
  rcases List.append_eq_append_iff.mp h with ⟨z, -, hz⟩ | ⟨z, -, hz⟩
  · cases z with
    | nil => exact (List.cons.inj hz).2
    | cons d z =>
      obtain ⟨-, rfl⟩ := List.cons.inj hz
      simp at hu
  · cases z with
    | nil => exact (List.cons.inj hz).2.symm
    | cons d z =>
      obtain ⟨-, rfl⟩ := List.cons.inj hz
      simp at hv

/-- The name, the descriptors of the parameters and that of the result are told apart. -/
theorem signature_inj {name name' result result' : String} {types types' : List String}
    (htypes : ∀ t ∈ types, IsType t.toList) (htypes' : ∀ t ∈ types', IsType t.toList)
    (hresult : IsType result.toList) (hresult' : IsType result'.toList)
    (h : name ++ "(" ++ String.join types ++ ")" ++ result =
      name' ++ "(" ++ String.join types' ++ ")" ++ result') :
    name = name' ∧ types = types' ∧ result = result' := by
  have closed {types : List String} {result : String} (htypes : ∀ t ∈ types, IsType t.toList)
      (hresult : IsType result.toList) :
      '(' ∉ (types.map String.toList).flatten ++ ')' :: result.toList := by
    simp only [List.mem_append, List.mem_flatten, List.mem_map, List.mem_cons, not_or]
    refine ⟨?_, by decide, hresult.not_mem⟩
    rintro ⟨_, ⟨t, ht, rfl⟩, hmem⟩
    exact (htypes t ht).not_mem hmem
  have texts (name result : String) (types : List String) :
      (name ++ "(" ++ String.join types ++ ")" ++ result).toList =
        name.toList ++ '(' :: ((types.map String.toList).flatten ++ ')' :: result.toList) := by
    simp [List.flatMap]
  have htext := congrArg String.toList h
  rw [texts, texts] at htext
  obtain ⟨hname, hrest⟩ := append_cons_inj (closed htypes hresult) (closed htypes' hresult') htext
  obtain ⟨hsame, hend⟩ := flatten_append_inj (List.forall_mem_map.mpr htypes)
    (List.forall_mem_map.mpr htypes') hrest
  exact ⟨String.toList_inj.mp hname, List.map_injective_iff.mpr (fun _ _ => String.toList_inj.mp) hsame,
    String.toList_inj.mp hend⟩

/-- Whether a text is made of the descriptors of as many types. -/
def AreTypes (text : String) (count : Nat) : Prop :=
  ∃ types : List String, types.length = count ∧ (∀ t ∈ types, IsType t.toList) ∧
    text = String.join types

/-- Whether a signature is that of a member with as many parameters. -/
def Declares (signature : String) (count : Nat) : Prop :=
  ∃ name parameters result : String, AreTypes parameters count ∧ IsType result.toList ∧
    signature = name ++ "(" ++ parameters ++ ")" ++ result

/-- A signature says how many parameters its member has. -/
theorem Declares.unique {signature : String} {count count' : Nat} (h : Declares signature count)
    (h' : Declares signature count') : count = count' := by
  obtain ⟨name, _, result, ⟨types, rfl, htypes, rfl⟩, hresult, hsignature⟩ := h
  obtain ⟨name', _, result', ⟨types', rfl, htypes', rfl⟩, hresult', hsignature'⟩ := h'
  obtain ⟨-, hsame, -⟩ := signature_inj htypes htypes' hresult hresult'
    (hsignature.symm.trans hsignature')
  rw [hsame]

end Descriptor

open Descriptor

theorem isType_referenceDescriptor {name : String} (h : ClassName.IsPlain name) :
    IsType (referenceDescriptor name).toList := by
  have htext : (referenceDescriptor name).toList = 'L' :: (name.toList ++ [';']) := by
    simp [referenceDescriptor]
  rw [htext]
  exact .reference h.1 h.2

theorem isType_void : IsType "V".toList :=
  .tag (by decide)

theorem isType_objectDescriptor : IsType objectDescriptor.toList :=
  have h : ClassName.IsPlain "java/lang/Object" := by decide
  isType_referenceDescriptor h

theorem JvmType.isType_descriptor {type : JvmType}
    (h : ∀ name, type.className? = some name → ClassName.IsPlain name) :
    IsType type.descriptor.toList := by
  induction type with
  | object name => exact isType_referenceDescriptor (h name rfl)
  | array element ih =>
    simp only [descriptor, String.toList_append]
    exact .array (ih h)
  | typeVariable name bound ih => exact ih h
  | _ => exact .tag (by decide)

namespace Host

/-- Whether all class names in the types of a host are plain. -/
def NamesPlainly (host : Host) : Prop :=
  ∀ d type name, host.type d = some type → type.className? = some name → ClassName.IsPlain name

theorem NamesPlainly.isType_parameterDescriptor {host : Host} (h : host.NamesPlainly) (p : DeclId) :
    IsType (host.parameterDescriptor p).toList := by
  unfold parameterDescriptor
  cases htype : host.type p with
  | none => exact isType_objectDescriptor
  | some type => exact JvmType.isType_descriptor (h p type · htype)

theorem NamesPlainly.isType_of_mem {host : Host} (h : host.NamesPlainly) {params : List DeclId} :
    ∀ text ∈ params.map host.parameterDescriptor, IsType text.toList :=
  List.forall_mem_map.mpr fun p _ => h.isType_parameterDescriptor p

/-- The descriptor of the result of a method. A method without a type has no result. -/
def resultDescriptor (host : Host) (d : DeclId) : String :=
  ((host.type d).map JvmType.descriptor).getD "V"

theorem NamesPlainly.isType_resultDescriptor {host : Host} (h : host.NamesPlainly) (d : DeclId) :
    IsType (host.resultDescriptor d).toList := by
  unfold resultDescriptor
  cases htype : host.type d with
  | none => exact isType_void
  | some type => exact JvmType.isType_descriptor (h d type · htype)

theorem signature_of_constructor {host : Host} {d : DeclId} (h : host.kind d = .constructor) :
    host.signature d = constructorName ++ "(" ++
      String.join ((host.parameters d).map host.parameterDescriptor) ++ ")" ++ "V" := by
  simp only [signature, h, if_true]

theorem signature_of_ne_constructor {host : Host} {d : DeclId} (h : host.kind d ≠ .constructor) :
    host.signature d = host.simpleName d ++ "(" ++
      String.join ((host.parameters d).map host.parameterDescriptor) ++ ")" ++
        host.resultDescriptor d := by
  simp only [signature, h, if_false, resultDescriptor]

/-- The signature of a compiled member declares its parameters. -/
theorem NamesPlainly.declares_signature {host : Host} (h : host.NamesPlainly) (d : DeclId) :
    Declares (host.signature d) (host.parameters d).length := by
  have hparameters : AreTypes (String.join ((host.parameters d).map host.parameterDescriptor))
      (host.parameters d).length :=
    ⟨_, List.length_map .., h.isType_of_mem, rfl⟩
  by_cases hkind : host.kind d = .constructor
  · exact ⟨_, _, _, hparameters, isType_void, signature_of_constructor hkind⟩
  · exact ⟨_, _, _, hparameters, h.isType_resultDescriptor d, signature_of_ne_constructor hkind⟩

end Host

/-- Whether all class names in the types of a tree are plain. -/
def DeclTree.namesPlainly (t : DeclTree) : Bool :=
  t.decls.toList.all fun d => (d.type.bind JvmType.className?).all (ClassName.IsPlain ·)

theorem DeclTree.namesPlainly_toHost {t : DeclTree} (h : t.namesPlainly) :
    t.toHost.NamesPlainly := by
  intro x type name htype hname
  obtain ⟨d, hd, htype⟩ := Option.bind_eq_some_iff.mp htype
  have hmem : d ∈ t.decls.toList := Array.mem_toList_iff.mpr (Array.mem_of_getElem? hd)
  have hall := List.all_eq_true.mp h d hmem
  simpa [htype, hname] using hall

/-- Whether all class names in a source type are plain. -/
def TypeRef.IsPlain (strings : StringTable) (type : TypeRef) : Prop :=
  ∀ id name, type.Names id → strings.get id = .ok name → ClassName.IsPlain name

theorem ClassName.isNeverAdded_parenthesis : IsNeverAdded '(' :=
  ⟨by decide, by decide, by decide, by decide⟩

/-- The names in descriptors are plain if the source names are. -/
theorem ClassName.lasts_isPlain : Lasts IsPlain where
  closed := And.left
  library hname := by
    have hall : ∀ name ∈ ClassName.library, IsPlain name := by decide
    exact hall _ hname
  compiled h :=
    ⟨isNeverAdded_semicolon.not_mem_compiled h.1, isNeverAdded_parenthesis.not_mem_compiled h.2⟩

/-- What plain types become is described one after the other. -/
theorem JvmType.areTypes_descriptors {types : List JvmType}
    (h : ∀ type ∈ types, ∀ name, type.className? = some name → ClassName.IsPlain name) :
    AreTypes (String.join (types.map descriptor)) types.length :=
  ⟨types.map descriptor, List.length_map .., List.forall_mem_map.mpr fun type htype =>
    isType_descriptor (h type htype), rfl⟩

/-- The types that the signature of a constructor is computed from. -/
def ConstructorDescriptor.types (c : ConstructorDescriptor) : List TypeRef :=
  c.valueParameters.map ParameterDescriptor.type

namespace Scope

variable {scope : Scope}

/-- Whether the bounds of the type parameters in scope are plain. -/
def BoundsPlain (scope : Scope) : Prop :=
  ∀ param ∈ scope.typeParameters, ∀ bound ∈ param.upperBounds, bound.IsPlain scope.strings

/-- Value parameters are encoded as one descriptor each. -/
theorem areTypes_encodeParameters (hscope : scope.BoundsPlain) {params : List ParameterDescriptor}
    {text : String} (hparams : ∀ type ∈ params.map ParameterDescriptor.type,
      type.IsPlain scope.strings) (h : scope.encodeParameters params = .ok text) :
    AreTypes text params.length := by
  obtain ⟨texts, htexts, rfl⟩ := encodeParameters_ok h
  obtain ⟨values, hvalues, rfl⟩ :=
    exists_becomes_of_forall₂ ClassName.lasts_isPlain hscope hparams htexts
  have hlength : values.length = params.length := by
    rw [← hvalues.length_eq, List.length_map]
  rw [← hlength]
  refine JvmType.areTypes_descriptors fun value hvalue name => ?_
  obtain ⟨type, -, hbecomes, -⟩ := exists_of_mem_forall₂ hvalues hvalue
  exact hbecomes.names

/-- The computed signature of a function declares its receiver, its value parameters and its
continuation. -/
theorem declares_functionSignature (hscope : scope.BoundsPlain) {f : FunctionDescriptor}
    (htypes : ∀ type ∈ f.types, type.IsPlain scope.strings) (unrecorded : f.signature = none)
    {signature : String} (h : scope.functionSignature f = .ok signature) :
    Declares signature
      (f.receiver.isSome.toNat + f.valueParameters.length + f.isSuspending.toNat) := by
  obtain ⟨name, values, result, hcomputes⟩ :=
    exists_computes ClassName.lasts_isPlain hscope htypes unrecorded h
  rw [← hcomputes.length]
  refine ⟨name, String.join ((values ++ f.continuation).map JvmType.descriptor), result.descriptor,
    JvmType.areTypes_descriptors fun value hvalue _ => ?_, JvmType.isType_descriptor fun _ => ?_, ?_⟩
  · exact hcomputes.names ClassName.lasts_isPlain hvalue
  · exact hcomputes.resultNames ClassName.lasts_isPlain
  · rw [hcomputes.signature_eq]
    simp only [JvmType.methodDescriptor, String.append_assoc]

/-- The computed signature of a constructor, as the host shows it, declares its value parameters. -/
theorem declares_constructorSignature (hscope : scope.BoundsPlain) {c : ConstructorDescriptor}
    (htypes : ∀ type ∈ c.types, type.IsPlain scope.strings) (unrecorded : c.signature = none)
    {owner : String} {isEnum : Bool} {signature : String}
    (h : scope.constructorSignature owner c isEnum = .ok signature) :
    Declares signature c.valueParameters.length := by
  rw [scope.constructorSignature_of_unrecorded owner unrecorded isEnum] at h
  obtain ⟨params, hparams, h⟩ := Except.bind_eq_ok_iff.mp h
  obtain rfl := Except.ok.inj h
  have htypes : AreTypes params c.valueParameters.length :=
    areTypes_encodeParameters hscope htypes (Except.mapError_eq_ok_iff.mp hparams)
  refine ⟨constructorName, params, "V", htypes, isType_void, ?_⟩
  simp only [String.append_assoc]
  rfl

end Scope

end Correspondence
