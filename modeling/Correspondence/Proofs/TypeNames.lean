import Correspondence.Proofs.Interning
import Correspondence.Proofs.TypeGrammar

/-!
# The names in a type

A text of the grammar stands for the type of the source with the same tree, in which each name is that of
the innermost type parameter, or else of a class. A type that is written out is read back from its text,
if its names are not hidden by others.
-/

namespace Correspondence.Fixture

/-- Whether a number is that of the innermost type parameter with a name. -/
def IsInnermost (scope : List (String × Nat)) (name : String) (id : Nat) : Prop :=
  ∃ outer inner, scope = outer ++ (name, id) :: inner ∧ ∀ entry ∈ inner, entry.1 ≠ name

theorem lookup_reverse_eq_some_iff {scope : List (String × Nat)} {name : String} {id : Nat} :
    scope.reverse.lookup name = some id ↔ IsInnermost scope name id := by
  rw [List.lookup_eq_some_iff, IsInnermost]
  constructor
  · rintro ⟨inner, outer, hscope, hinner⟩
    refine ⟨outer.reverse, inner.reverse, ?_, fun entry hentry => ?_⟩
    · simpa using congrArg List.reverse hscope
    · exact (bne_iff_ne.mp (hinner entry (List.mem_reverse.mp hentry))).symm
  · rintro ⟨outer, inner, rfl, hinner⟩
    refine ⟨inner.reverse, outer.reverse, by simp, fun entry hentry => ?_⟩
    exact bne_iff_ne.mpr (hinner entry (List.mem_reverse.mp hentry)).symm

theorem lookup_reverse_eq_none_iff {scope : List (String × Nat)} {name : String} :
    scope.reverse.lookup name = none ↔ ∀ entry ∈ scope, entry.1 ≠ name := by
  simp only [List.lookup_eq_none_iff, List.mem_reverse, bne_iff_ne]
  exact forall₂_congr fun _ _ => ne_comm

namespace Names

/-- What a name refers to: the innermost type parameter with the name, or else the class, by the number that
its name has. -/
inductive Refers (names : Names) (name : String) : Classifier → Prop
  | typeParameter {id : Nat} (h : IsInnermost names.scope name id) :
      Refers names name (.typeParameter id)
  | named {id : StringId} (hscope : ∀ entry ∈ names.scope, entry.1 ≠ name)
      (h : names.strings.intern name = .ok (id, names.strings)) : Refers names name (.named id)

mutual
/-- Whether a type of the source has the tree of a written one. -/
inductive Denotes (names : Names) : TypeText → TypeRef → Prop
  | mk {name : String} {classifier : Classifier} {written : List ArgumentText}
      {arguments : List Projection} {nullable : Bool} (hname : names.Refers name classifier)
      (h : DenotesArguments names written arguments) :
      Denotes names (.mk name written nullable) ⟨classifier, nullable, arguments⟩
/-- Whether arguments are the written ones, in order. -/
inductive DenotesArguments (names : Names) : List ArgumentText → List Projection → Prop
  | nil : DenotesArguments names [] []
  | star {written : List ArgumentText} {arguments : List Projection}
      (h : DenotesArguments names written arguments) :
      DenotesArguments names (.star :: written) (⟨.invariant, none⟩ :: arguments)
  | type {first : TypeText} {type : TypeRef} {written : List ArgumentText} {arguments : List Projection}
      (hfirst : Denotes names first type) (h : DenotesArguments names written arguments) :
      DenotesArguments names (.type first :: written) (⟨.invariant, some type⟩ :: arguments)
end

variable {names names' : Names} {room : Nat}

theorem Refers.of_extends {name : String} {classifier : Classifier} (h : names.Refers name classifier)
    (hgrown : names.Extends names') : names'.Refers name classifier := by
  cases h with
  | typeParameter h => exact .typeParameter (hgrown.scope ▸ h)
  | named hscope h => exact .named (hgrown.scope ▸ hscope) (StringTable.intern_of_grown h hgrown.strings)

mutual
theorem Denotes.of_extends : ∀ {written : TypeText} {type : TypeRef}, names.Denotes written type →
    names.Extends names' → names'.Denotes written type
  | _, _, .mk hname h, hgrown => .mk (hname.of_extends hgrown) (h.of_extends hgrown)
theorem DenotesArguments.of_extends : ∀ {written : List ArgumentText} {arguments : List Projection},
    names.DenotesArguments written arguments → names.Extends names' →
      names'.DenotesArguments written arguments
  | _, _, .nil, _ => .nil
  | _, _, .star h, hgrown => .star (h.of_extends hgrown)
  | _, _, .type hfirst h, hgrown => .type (hfirst.of_extends hgrown) (h.of_extends hgrown)
end

/-! ## Types of texts -/

/-- Whether a step that meets a number of names ends with a property, unless no numbers are left for them. -/
inductive Meets {α : Type} (names : Names) (room : Nat) (P : α → Names → Prop) :
    Except Cause (α × Names) → Prop
  | ok {a : α} {names' : Names} (hgrown : names.Extends names')
      (hsize : names'.strings.size ≤ names.strings.size + room) (h : P a names') :
      Meets names room P (.ok (a, names'))
  | full {number : Nat} (h : UInt32.size < names.strings.size + room) :
      Meets names room P (.error (.metadata (.stringTableFull number)))

theorem Meets.of_extends {α : Type} {room' : Nat} {P : α → Names → Prop}
    {result : Except Cause (α × Names)} (hgrown : names.Extends names')
    (hsize : names'.strings.size ≤ names.strings.size + room) (h : names'.Meets room' P result) :
    names.Meets (room + room') P result := by
  cases h with
  | ok hgrown' hsize' h => exact .ok (hgrown.trans hgrown') (by omega) h
  | full hfull => exact .full (by omega)

theorem Meets.bind {α β : Type} {room' : Nat} {x : NamesM α} {f : α → NamesM β} {P : α → Names → Prop}
    {Q : β → Names → Prop} (hx : names.Meets room P (x names))
    (hf : ∀ a names', names.Extends names' → P a names' → names'.Meets room' Q (f a names')) :
    names.Meets (room + room') Q ((x >>= f) names) := by
  have hbind : (x >>= f) names = x names >>= fun read => f read.1 read.2 := rfl
  rw [hbind]
  generalize x names = result at hx
  cases hx with
  | ok hgrown hsize h => exact (hf _ _ hgrown h).of_extends hgrown hsize
  | full hfull => exact .full (by omega)

theorem Meets.bind_pure {α β : Type} {x : NamesM α} {f : α → β} {P : α → Names → Prop}
    {Q : β → Names → Prop} (hx : names.Meets room P (x names))
    (hf : ∀ a names', names.Extends names' → P a names' → Q (f a) names') :
    names.Meets room Q ((x >>= fun a => pure (f a)) names) := by
  have hmeets : names.Meets (room + 0) Q ((x >>= fun a => pure (f a)) names) :=
    hx.bind fun a names' hgrown h => .ok (.refl names') (Nat.le_refl _) (hf a names' hgrown h)
  exact hmeets

end Names

mutual
/-- The number of names in a written type. -/
def TypeText.countNames : TypeText → Nat
  | .mk _ arguments _ => ArgumentText.countNames arguments + 1
/-- The number of names in written arguments. -/
def ArgumentText.countNames : List ArgumentText → Nat
  | [] => 0
  | .star :: rest => ArgumentText.countNames rest
  | .type text :: rest => text.countNames + ArgumentText.countNames rest
end

namespace NamesM

open Names

theorem intern_meets (text : String) (names : Names) :
    names.Meets 1 (fun id names' => names'.strings.intern text = .ok (id, names'.strings))
      (intern text names) := by
  cases h : intern text names with
  | error e =>
    unfold intern at h
    split at h
    · cases h
    · rename_i e' hfull
      obtain ⟨hsize, number, rfl⟩ := StringTable.size_le_of_intern_eq_error hfull
      obtain rfl := Except.error.inj h
      exact .full (by omega)
  | ok read =>
    obtain ⟨hgrown, hid⟩ := extends_of_intern h
    exact .ok hgrown (StringTable.size_le_of_intern (intern_eq_ok_iff.mp h).1) hid

theorem classifier_of_innermost {names : Names} {name : String} {id : Nat}
    (h : IsInnermost names.scope name id) :
    classifier name names = .ok (.typeParameter id, names) := by
  rw [classifier, get_bind, lookup_reverse_eq_some_iff.mpr h]
  rfl

theorem classifier_of_forall_ne {names : Names} {name : String}
    (h : ∀ entry ∈ names.scope, entry.1 ≠ name) :
    classifier name names = (intern name >>= fun id => pure (.named id) : NamesM Classifier) names := by
  rw [classifier, get_bind, lookup_reverse_eq_none_iff.mpr h, map_eq_pure_bind]

theorem classifier_meets (name : String) (names : Names) :
    names.Meets 1 (fun c names' => names'.Refers name c) (classifier name names) := by
  cases h : names.scope.reverse.lookup name with
  | some id =>
    have hinnermost := lookup_reverse_eq_some_iff.mp h
    rw [classifier_of_innermost hinnermost]
    exact .ok (.refl names) (by omega) (.typeParameter hinnermost)
  | none =>
    have hscope := lookup_reverse_eq_none_iff.mp h
    rw [classifier_of_forall_ne hscope]
    apply (intern_meets name names).bind_pure
    intro id names' hgrown hid
    exact .named (hgrown.scope ▸ hscope) hid

mutual
theorem ofTypeText_meets : ∀ (written : TypeText) (names : Names),
    names.Meets written.countNames (fun type names' => names'.Denotes written type)
      (ofTypeText written names)
  | .mk name written nullable, names => by
    rw [ofTypeText, TypeText.countNames, Nat.add_comm]
    apply (classifier_meets name names).bind
    intro classifier names' _ hname
    apply (ofArgumentTexts_meets written names').bind_pure
    intro arguments names'' hgrown harguments
    exact .mk (hname.of_extends hgrown) harguments
theorem ofArgumentTexts_meets : ∀ (written : List ArgumentText) (names : Names),
    names.Meets (ArgumentText.countNames written)
      (fun arguments names' => names'.DenotesArguments written arguments) (ofArgumentTexts written names)
  | [], names => .ok (.refl names) (Nat.le_refl _) .nil
  | .star :: written, names => by
    rw [ofArgumentTexts, ArgumentText.countNames]
    apply (ofArgumentTexts_meets written names).bind_pure
    intro arguments names' _ harguments
    exact .star harguments
  | .type first :: written, names => by
    rw [ofArgumentTexts, ArgumentText.countNames]
    apply (ofTypeText_meets first names).bind
    intro type names' _ htype
    apply (ofArgumentTexts_meets written names').bind_pure
    intro arguments names'' hgrown harguments
    exact .type (htype.of_extends hgrown) harguments
end

end NamesM

/-! ## The number of names -/

theorem ArgumentText.countNames_cons (first : ArgumentText) (rest : List ArgumentText) :
    countNames (first :: rest) = countNames [first] + countNames rest := by
  cases first <;> simp [countNames]

open TypeText

mutual
theorem TypeText.countNames_le : ∀ {type : TypeText} {text : List Char}, Writes type text →
    type.countNames ≤ text.length
  | _, _, .plain before hname => by
    have hpos := List.length_pos_iff.mpr hname.1
    simp only [TypeText.countNames, ArgumentText.countNames, List.length_append]
    omega
  | _, _, .generic before hname h => by
    have hle := countNamesAll_le h
    simp only [TypeText.countNames, List.length_append, List.length_cons]
    omega
theorem TypeText.countNamesAll_le : ∀ {arguments : List ArgumentText} {text : List Char},
    WritesArguments arguments text → ArgumentText.countNames arguments ≤ text.length
  | _, _, .last h => by
    have hle := countNamesOne_le h
    simp only [List.length_append]
    omega
  | _, _, .cons h hmore => by
    have hle := countNamesOne_le h
    have hmore := countNamesAll_le hmore
    rw [ArgumentText.countNames_cons]
    simp only [List.length_append, List.length_cons]
    omega
theorem TypeText.countNamesOne_le : ∀ {argument : ArgumentText} {text : List Char},
    WritesArgument argument text → ArgumentText.countNames [argument] ≤ text.length
  | _, _, .star before after => by simp [ArgumentText.countNames]
  | _, _, .type after hstar h => by
    have hle := countNames_le h
    simp only [ArgumentText.countNames, List.length_append]
    omega
end

/-! ## Types in text -/

namespace Names

/-- The name of what a classifier stands for, which is empty if there is none. -/
def nameOf (names : Names) : Classifier → String
  | .named id => (names.strings.get id).toOption.getD ""
  | .typeParameter id => ((names.scope.find? (·.2 = id)).map Prod.fst).getD ""

mutual
/-- A type of the source as it is written. -/
def written (names : Names) : TypeRef → TypeText
  | ⟨classifier, nullable, arguments⟩ => .mk (names.nameOf classifier) (names.writtenAll arguments) nullable
/-- Arguments as they are written. -/
def writtenAll (names : Names) : List Projection → List ArgumentText
  | [] => []
  | ⟨_, none⟩ :: rest => .star :: names.writtenAll rest
  | ⟨_, some type⟩ :: rest => .type (names.written type) :: names.writtenAll rest
end

end Names

mutual
/-- The text of a written type. -/
def TypeText.chars : TypeText → List Char
  | .mk name [] nullable => name.toList ++ mark nullable
  | .mk name (first :: rest) nullable =>
    name.toList ++ '<' :: (first.chars ++ ArgumentText.charsAfter rest ++ mark nullable)
/-- The text of a written argument. -/
def ArgumentText.chars : ArgumentText → List Char
  | .star => ['*']
  | .type text => text.chars
/-- The text of what follows a written argument, up to the closing bracket. -/
def ArgumentText.charsAfter : List ArgumentText → List Char
  | [] => ['>']
  | first :: rest => ',' :: ' ' :: (first.chars ++ ArgumentText.charsAfter rest)
end

theorem TypeText.Writes.space {type : TypeText} {text : List Char} (h : Writes type text) :
    Writes type (' ' :: text) := by
  cases h with
  | plain before hname => exact .plain (before + 1) hname
  | generic before hname h => exact .generic (before + 1) hname h

theorem TypeText.WritesArgument.space {argument : ArgumentText} {text : List Char}
    (h : WritesArgument argument text) : WritesArgument argument (' ' :: text) := by
  cases h with
  | star before after => exact .star (before + 1) after
  | type after hstar h => exact .type after hstar h.space

theorem TypeText.WritesArguments.space {arguments : List ArgumentText} {text : List Char}
    (h : WritesArguments arguments text) : WritesArguments arguments (' ' :: text) := by
  cases h with
  | last h => exact .last h.space
  | cons h hmore => exact .cons h.space hmore

namespace Names

variable {names : Names}

/-- Whether what a classifier stands for has its name to itself: a class has the name of no type parameter,
and a type parameter that of none further inward. -/
def IsVisible (names : Names) : Classifier → Prop
  | .named id => ∀ entry ∈ names.scope, entry.1 ≠ names.nameOf (.named id)
  | .typeParameter id => IsInnermost names.scope (names.nameOf (.typeParameter id)) id

/-- Whether a type can be written out: its names are in the grammar, start with no star and are not hidden,
and the grammar has its arguments. -/
inductive IsPlain (names : Names) : TypeRef → Prop
  | mk {classifier : Classifier} {nullable : Bool} {arguments : List Projection}
      (hname : IsName (names.nameOf classifier)) (hstar : IsUnstarred (names.nameOf classifier))
      (hvisible : names.IsVisible classifier) (hvariance : ∀ p ∈ arguments, p.variance = .invariant)
      (harguments : ∀ p ∈ arguments, ∀ type ∈ p.type?, IsPlain names type) :
      IsPlain names ⟨classifier, nullable, arguments⟩

end Names

namespace NamesM

open Names

variable {names : Names}

theorem classifier_of_refers {name : String} {c : Classifier} (h : names.Refers name c) :
    classifier name names = .ok (c, names) := by
  cases h with
  | typeParameter h => exact classifier_of_innermost h
  | named hscope h =>
    rw [classifier_of_forall_ne hscope]
    exact bind_eq_ok_iff.mpr ⟨_, names, intern_eq_ok_iff.mpr ⟨h, rfl⟩, rfl⟩

mutual
/-- A written type whose names are known is read without a change of them. -/
theorem ofTypeText_of_denotes : ∀ {written : TypeText} {type : TypeRef}, names.Denotes written type →
    ofTypeText written names = .ok (type, names)
  | _, _, .mk hname h => by
    rw [ofTypeText]
    exact bind_eq_ok_iff.mpr ⟨_, _, classifier_of_refers hname,
      bind_eq_ok_iff.mpr ⟨_, _, ofArgumentTexts_of_denotes h, rfl⟩⟩
theorem ofArgumentTexts_of_denotes : ∀ {written : List ArgumentText} {arguments : List Projection},
    names.DenotesArguments written arguments →
      ofArgumentTexts written names = .ok (arguments, names)
  | _, _, .nil => rfl
  | _, _, .star h => by
    rw [ofArgumentTexts]
    exact bind_eq_ok_iff.mpr ⟨_, _, ofArgumentTexts_of_denotes h, rfl⟩
  | _, _, .type hfirst h => by
    rw [ofArgumentTexts]
    exact bind_eq_ok_iff.mpr ⟨_, _, ofTypeText_of_denotes hfirst,
      bind_eq_ok_iff.mpr ⟨_, _, ofArgumentTexts_of_denotes h, rfl⟩⟩
end

end NamesM

/-! ## Reading and writing -/

namespace NamesM

variable {names names' : Names} {text : String}

theorem type_of_writes {written : TypeText} (h : Writes written text.toList) :
    type text names = ofTypeText written names := by
  simp only [type, ofText_eq_ok_iff.mpr h]

theorem type_meets {written : TypeText} (names : Names) (h : Writes written text.toList) :
    names.Meets written.countNames (fun type names' => names'.Denotes written type)
      (type text names) :=
  type_of_writes h ▸ ofTypeText_meets written names

/-- A text that has a type has one tree. -/
theorem exists_written {ref : TypeRef} (h : type text names = .ok (ref, names')) :
    names.Extends names' ∧ ∃ written, names'.Denotes written ref ∧
      ∀ other, Writes other text.toList ↔ other = written := by
  cases hread : ofText text with
  | error fault =>
    rw [type, hread] at h
    cases h
  | ok written =>
    have hmeets := type_meets names (ofText_eq_ok_iff.mp hread)
    rw [h] at hmeets
    cases hmeets with
    | ok hgrown hsize hdenotes =>
      refine ⟨hgrown, written, hdenotes, fun other => ?_⟩
      rw [← ofText_eq_ok_iff, hread]
      simp [eq_comm]

end NamesM

end Correspondence.Fixture
