import Correspondence.Metadata.Json
import Correspondence.Proofs.FlagText

/-!
# Written forms

What is written of a value is read as that value, if the value fits the form; and what is read fits.
The forms of lists, of what may be absent and of records are made of the forms of their parts.
-/

namespace Correspondence

namespace Json

variable {α : Type}

/-- Whether the values that fit are exactly those that are read, and each is read back from what is
written of it. -/
structure Faithful (write : α → Json) (read : Json → Option α) (Fits : α → Prop) : Prop where
  reads {a : α} : Fits a → read (write a) = some a
  fits {j : Json} {a : α} : read j = some a → Fits a

variable {write : α → Json} {read : Json → Option α} {Fits : α → Prop}

/-- What has been read is read back. -/
theorem Faithful.again (h : Faithful write read Fits) {j : Json} {a : α} (ha : read j = some a) :
    read (write a) = some a :=
  h.reads (h.fits ha)

theorem faithful_word : Faithful nat word? (· < UInt32.size) where
  reads h := if_pos h
  fits {j n} h := by
    unfold word? natBelow? at h
    split at h
    · split at h
      · obtain rfl := Option.some.inj h
        assumption
      · cases h
    · cases h

theorem faithful_bool : Faithful .bool bool? fun _ => True where
  reads _ := rfl
  fits _ := trivial

theorem faithful_string : Faithful .string string? fun _ => True where
  reads _ := rfl
  fits _ := trivial

theorem mapM_map_eq_some {l : List α} (h : ∀ a ∈ l, read (write a) = some a) :
    (l.map write).mapM read = some l := by
  induction l with
  | nil => rfl
  | cons a l ih =>
    rw [List.map_cons, List.mapM_cons, h a List.mem_cons_self,
      ih fun b hb => h b (List.mem_cons_of_mem a hb)]
    rfl

theorem exists_of_mem_of_mapM {items : List Json} {l : List α} (h : items.mapM read = some l)
    {a : α} (ha : a ∈ l) : ∃ j ∈ items, read j = some a := by
  induction items generalizing l with
  | nil =>
    obtain rfl := Option.some.inj h
    cases ha
  | cons j items ih =>
    rw [List.mapM_cons] at h
    obtain ⟨b, hb, h⟩ := Option.bind_eq_some_iff.mp h
    obtain ⟨k, hk, h⟩ := Option.bind_eq_some_iff.mp h
    obtain rfl := Option.some.inj h
    rcases List.mem_cons.mp ha with rfl | ha
    · exact ⟨j, List.mem_cons_self, hb⟩
    · obtain ⟨i, hi, hread⟩ := ih hk ha
      exact ⟨i, List.mem_cons_of_mem j hi, hread⟩

theorem Faithful.list (h : Faithful write read Fits) :
    Faithful (Json.list write) (list? read) fun l => ∀ a ∈ l, Fits a where
  reads hl := mapM_map_eq_some fun a ha => h.reads (hl a ha)
  fits hl a ha := by
    obtain ⟨items, -, hitems⟩ := Option.bind_eq_some_iff.mp hl
    obtain ⟨j, -, hj⟩ := exists_of_mem_of_mapM hitems ha
    exact h.fits hj

theorem opt?_eq_some {j : Json} {a : α} (hnull : j ≠ .null) (h : read j = some a) :
    opt? read j = some (some a) := by
  unfold opt?
  split
  · exact absurd rfl hnull
  · rw [h]
    rfl

theorem Faithful.opt (h : Faithful write read Fits) (hnull : ∀ a, write a ≠ .null) :
    Faithful (Json.opt write) (opt? read) fun o => ∀ a ∈ o, Fits a where
  reads {o} ho := by
    cases o with
    | none => rfl
    | some a => exact opt?_eq_some (hnull a) (h.reads (ho a rfl))
  fits {j o} ho := by
    unfold opt? at ho
    split at ho
    · obtain rfl := Option.some.inj ho
      simp
    · obtain ⟨a, ha, rfl⟩ := Option.map_eq_some_iff.mp ho
      rintro b ⟨⟩
      exact h.fits ha

section Fields

variable {fields : Fields} {name : String} {default a : α}

theorem Faithful.of_required (h : Faithful write read Fits)
    (ha : fields.required name read = some a) : Fits a := by
  obtain ⟨j, -, hj⟩ := Option.bind_eq_some_iff.mp ha
  exact h.fits hj

theorem eq_default_of_optional (ha : fields.optional name default read = some a)
    (hnone : fields.lookup name = none) : a = default := by
  unfold Fields.optional at ha
  rw [hnone] at ha
  exact (Option.some.inj ha).symm

theorem lookup_of_absent (write : α → Json) (ha : fields.optional name default read = some a)
    {written : Fields} (hwritten : written.lookup name = some (write a))
    (hnone : fields.lookup name = none) : written.lookup name = some (write default) := by
  rw [hwritten, eq_default_of_optional ha hnone]

theorem Faithful.of_optional (h : Faithful write read Fits) (hdefault : Fits default)
    (ha : fields.optional name default read = some a) : Fits a := by
  unfold Fields.optional at ha
  split at ha
  · exact Option.some.inj ha ▸ hdefault
  · exact h.fits ha

theorem Faithful.of_list (h : Faithful write read Fits) {l : List α}
    (hl : fields.optional name [] (list? read) = some l) : ∀ a ∈ l, Fits a :=
  h.list.of_optional (by simp) hl

theorem exists_of_nullable (h : fields.nullable name read = some (some a)) :
    ∃ j, read j = some a := by
  unfold Fields.nullable Fields.optional at h
  split at h
  · cases h
  · unfold opt? at h
    split at h
    · cases h
    · exact ⟨_, by simpa using h⟩

theorem Faithful.of_nullable (h : Faithful write read Fits) {o : Option α}
    (ho : fields.nullable name read = some o) : ∀ a ∈ o, Fits a := by
  rintro a ha
  obtain ⟨j, hj⟩ := exists_of_nullable (ho.trans (congrArg some ha))
  exact h.fits hj

end Fields

/-- Whether the fields that may be left out of a record are written nevertheless, with their
defaults. -/
def FillsIn (names : List String) (write : α → Json) (read : Json → Option α)
    (defaults : List (String × Json)) : Prop :=
  ∀ (j : Json) (fields : Fields) (a : α), j.record? names = some fields → read j = some a →
    ∃ written, write a = .object written ∧
      ∀ d ∈ defaults, fields.lookup d.1 = none → written.lookup d.1 = some d.2

/-- Whether a record is read from its fields, whose names are given in order. -/
def ReadsRecord (names : List String) (read : Json → Option α) (ReadFrom : Fields → α → Prop) :
    Prop :=
  ∀ (j : Json) (a : α),
    read j = some a ↔ ∃ fields, j.record? names = some fields ∧ ReadFrom fields a

section Records

variable {names : List String} {ReadFrom : Fields → α → Prop}

theorem ReadsRecord.faithful (h : ReadsRecord names read ReadFrom)
    (hreads : ∀ a, Fits a → ∃ written, write a = .object written ∧ ReadFrom written a)
    (hfits : ∀ fields a, ReadFrom fields a → Fits a) : Faithful write read Fits where
  reads {a} ha := by
    obtain ⟨written, hwrite, hread⟩ := hreads a ha
    exact (h _ _).mpr ⟨written, congrArg (record? names) hwrite, hread⟩
  fits {j a} ha := by
    obtain ⟨fields, -, hread⟩ := (h j a).mp ha
    exact hfits fields a hread

theorem ReadsRecord.fillsIn (h : ReadsRecord names read ReadFrom)
    {defaults : List (String × Json)}
    (hfills : ∀ fields a, ReadFrom fields a → ∃ written, write a = .object written ∧
      ∀ d ∈ defaults, fields.lookup d.1 = none → written.lookup d.1 = some d.2) :
    FillsIn names write read defaults := by
  intro j fields a hfields ha
  obtain ⟨fields', hfields', hread⟩ := (h j a).mp ha
  obtain rfl := Option.some.inj (hfields.symm.trans hfields')
  exact hfills fields a hread

end Records

end Json

open Json

theorem Named.faithful {α : Type} [Named α] [Named.Distinct α] :
    Faithful (toJson : α → Json) ofJson? fun _ => True where
  reads _ := Distinct.ofName?_name _
  fits _ := trivial

instance : Named.Distinct Variance := ⟨fun a => by cases a <;> decide⟩

instance : Named.Distinct ClassKind := ⟨fun a => by cases a <;> decide⟩

instance : Named.Distinct Modality := ⟨fun a => by cases a <;> decide⟩

instance : Named.Distinct Visibility := ⟨fun a => by cases a <;> decide⟩

instance : Named.Distinct ConstructorKind := ⟨fun a => by cases a <;> decide⟩

theorem Flags.faithful {μ : Type} [DecidableEq μ] [Named μ] [Legible μ] :
    Faithful (toJson : Flags μ → Json) ofJson? fun flags => flags.bits < UInt32.size where
  reads h := ofText?_text h
  fits h := by
    obtain ⟨text, -, htext⟩ := Option.bind_eq_some_iff.mp h
    exact lt_of_ofText? htext

/-- Whether the number fits into 32 bits. -/
def StringId.Fits (id : StringId) : Prop :=
  id.index < UInt32.size

theorem StringId.faithful : Faithful toJson ofJson? StringId.Fits where
  reads h := congrArg (Option.map StringId.mk) (faithful_word.reads h)
  fits h := by
    obtain ⟨n, hn, rfl⟩ := Option.map_eq_some_iff.mp h
    exact faithful_word.fits hn

namespace Text.Numbering

theorem foldl_number {texts : List String} {n : Numbering} (h : (n.texts ++ texts).Nodup) :
    texts.foldl (fun n text => (n.number text).2) n = ⟨n.texts ++ texts⟩ := by
  induction texts generalizing n with
  | nil => simp
  | cons text texts ih =>
    have hmem : text ∉ n.texts := fun hmem =>
      (List.nodup_append.mp h).2.2 text hmem text List.mem_cons_self rfl
    rw [List.foldl_cons, number_of_not_mem hmem, ih (by simpa using h)]
    simp

theorem nodup_foldl {texts : List String} {n : Numbering} (h : n.texts.Nodup) :
    (texts.foldl (fun n text => (n.number text).2) n).texts.Nodup := by
  induction texts generalizing n with
  | nil => exact h
  | cons text texts ih =>
    refine ih ?_
    dsimp only
    by_cases hmem : text ∈ n.texts
    · obtain ⟨i, hi, -⟩ := number_of_mem hmem
      rw [hi]
      exact h
    · rw [number_of_not_mem hmem]
      simpa [List.nodup_append, h] using fun x hx (heq : x = text) => hmem (heq ▸ hx)

end Text.Numbering

/-- A table without repetitions is read back. -/
theorem StringTable.faithful : Faithful toJson ofJson? fun t : StringTable => t.toList.Nodup where
  reads {t} h := by
    have hlist := faithful_string.list.reads (a := t.toList) (by simp)
    have hread : Text.Numbering.ofList t.toList = ⟨t.toList⟩ :=
      Text.Numbering.foldl_number (by simpa using h)
    exact (congrArg (Option.map ofList) hlist).trans (congrArg (some ∘ StringTable.mk) hread)
  fits h := by
    obtain ⟨l, -, rfl⟩ := Option.map_eq_some_iff.mp h
    exact Text.Numbering.nodup_foldl List.nodup_nil

namespace Classifier

/-- Whether the number fits into 32 bits. -/
def Fits : Classifier → Prop
  | .named name => name.Fits
  | .typeParameter id => id < UInt32.size

theorem faithful : Faithful toJson ofJson? Classifier.Fits where
  reads {c} h := by
    cases c with
    | named name => exact congrArg (Option.map Classifier.named) (StringId.faithful.reads h)
    | typeParameter id =>
      exact congrArg (Option.map Classifier.typeParameter) (faithful_word.reads h)
  fits {j c} h := by
    unfold ofJson? at h
    split at h
    · obtain ⟨name, hname, rfl⟩ := Option.map_eq_some_iff.mp h
      exact StringId.faithful.fits hname
    · obtain ⟨id, hid, rfl⟩ := Option.map_eq_some_iff.mp h
      exact faithful_word.fits hid
    · cases h

end Classifier

/-- Whether all numbers in a type fit into 32 bits. -/
inductive TypeRef.Fits : TypeRef → Prop
  | mk {classifier : Classifier} {nullable : Bool} {arguments : List Projection}
      (classifier_fits : classifier.Fits)
      (arguments_fit : ∀ p ∈ arguments, ∀ type, p.type? = some type → TypeRef.Fits type) :
      TypeRef.Fits ⟨classifier, nullable, arguments⟩

namespace Json

theorem depth_le_depthItems {j : Json} {items : List Json} (h : j ∈ items) :
    j.depth ≤ depthItems items := by
  induction items with
  | nil => cases h
  | cons i items ih =>
    rw [depthItems]
    rcases List.mem_cons.mp h with rfl | h
    · exact Nat.le_max_left _ _
    · exact (ih h).trans (Nat.le_max_right _ _)

end Json

namespace Projection

def fieldNames : List String :=
  ["variance", "ty"]

/-- The fields that may be left out, as they are written then. -/
def defaults : List (String × Json) :=
  [("ty", .null)]

theorem listToJson_eq (arguments : List Projection) :
    listToJson arguments = arguments.map toJson := by
  induction arguments with
  | nil => rw [listToJson, List.map_nil]
  | cons p rest ih => rw [listToJson, List.map_cons, ih]

theorem depth_type (variance : Variance) (type : TypeRef) :
    (toJson ⟨variance, some type⟩).depth = type.toJson.depth + 1 := by
  simp [toJson, Named.toJson, depth, depthFields]

end Projection

namespace TypeRef

theorem toJson_ne_null (type : TypeRef) : type.toJson ≠ .null := by
  obtain ⟨classifier, nullable, arguments⟩ := type
  rw [toJson]
  exact nofun

theorem depth_argument (classifier : Classifier) (nullable : Bool) {arguments : List Projection}
    {p : Projection} (hp : p ∈ arguments) :
    p.toJson.depth + 2 ≤ (toJson ⟨classifier, nullable, arguments⟩).depth := by
  have hle : p.toJson.depth ≤ depthItems (arguments.map Projection.toJson) :=
    depth_le_depthItems (List.mem_map_of_mem hp)
  rw [toJson, Projection.listToJson_eq]
  simp only [depth, depthFields]
  omega

theorem readProjection_toJson {p : Projection} {n : Nat}
    (h : ∀ type, p.type? = some type → readWithin n type.toJson = some type) :
    readProjection (n + 1) p.toJson = some p := by
  obtain ⟨variance, type?⟩ := p
  have hvariance := Named.faithful.reads (a := variance) trivial
  cases type? with
  | none => simp [Projection.toJson, readProjection, Fields.required, Fields.nullable,
      Fields.optional, List.lookup_cons, hvariance, opt?]
  | some type =>
    have htype := opt?_eq_some type.toJson_ne_null (h type rfl)
    simp [Projection.toJson, readProjection, Fields.required, Fields.nullable, Fields.optional,
      List.lookup_cons, hvariance, htype]

/-- A type is read back where reading descends as deep as the written form. -/
theorem readWithin_toJson {type : TypeRef} (h : type.Fits) {n : Nat}
    (hdepth : type.toJson.depth ≤ n) : readWithin n type.toJson = some type := by
  induction h generalizing n with
  | @mk classifier nullable arguments hclassifier _ ih =>
    obtain ⟨n, rfl⟩ : ∃ m, n = m + 1 := Nat.exists_eq_add_one.mpr (by
      rw [toJson, depth] at hdepth
      omega)
    have harguments : (arguments.map Projection.toJson).mapM (readProjection n) =
        some arguments := by
      refine mapM_map_eq_some fun p hp => ?_
      have hp' := (depth_argument classifier nullable hp).trans hdepth
      obtain ⟨m, rfl⟩ : ∃ m, n = m + 1 := Nat.exists_eq_add_one.mpr (by omega)
      refine readProjection_toJson fun type htype => ih p hp type htype ?_
      obtain ⟨variance, type?⟩ := p
      obtain rfl : type? = some type := htype
      rw [Projection.depth_type] at hp'
      omega
    rw [toJson, readWithin, Projection.listToJson_eq]
    simp [record?, Fields.required, Fields.optional, List.lookup_cons,
      Classifier.faithful.reads hclassifier, bool?, list?, items?, harguments]

def fieldNames : List String :=
  ["classifier", "nullable", "arguments"]

/-- The fields that may be left out, as they are written then. -/
def defaults : List (String × Json) :=
  [("nullable", .bool false), ("arguments", .array [])]

/-- What the fields of a type hold. -/
structure ReadFrom (n : Nat) (fields : Fields) (type : TypeRef) : Prop where
  classifier : fields.required "classifier" Classifier.ofJson? = some type.classifier
  nullable : fields.optional "nullable" false bool? = some type.nullable
  arguments : fields.optional "arguments" [] (list? (readProjection n)) = some type.arguments

theorem exists_of_readWithin {n : Nat} {j : Json} {type : TypeRef}
    (h : readWithin n j = some type) :
    ∃ m fields, n = m + 1 ∧ j.record? fieldNames = some fields ∧ ReadFrom m fields type := by
  cases n with
  | zero => simp [readWithin] at h
  | succ m =>
    rw [readWithin] at h
    obtain ⟨fields, hfields, h⟩ := Option.bind_eq_some_iff.mp h
    obtain ⟨classifier, hclassifier, h⟩ := Option.bind_eq_some_iff.mp h
    obtain ⟨nullable, hnullable, h⟩ := Option.bind_eq_some_iff.mp h
    obtain ⟨arguments, harguments, h⟩ := Option.bind_eq_some_iff.mp h
    obtain rfl := Option.some.inj h
    exact ⟨m, fields, rfl, hfields, hclassifier, hnullable, harguments⟩

/-- The type of an argument is read from the second field. -/
theorem exists_of_readProjection {n : Nat} {j : Json} {p : Projection}
    (h : readProjection n j = some p) :
    ∃ m fields, n = m + 1 ∧ j.record? Projection.fieldNames = some fields ∧
      Fields.nullable fields "ty" (readWithin m) = some p.type? := by
  unfold readProjection at h
  split at h
  · rename_i m fields
    obtain ⟨variance, -, h⟩ := Option.bind_eq_some_iff.mp h
    obtain ⟨type?, htype, h⟩ := Option.bind_eq_some_iff.mp h
    obtain rfl := Option.some.inj h
    exact ⟨m, fields, rfl, rfl, htype⟩
  · rename_i m variance type
    obtain ⟨variance, -, h⟩ := Option.bind_eq_some_iff.mp h
    obtain ⟨type?, htype, h⟩ := Option.bind_eq_some_iff.mp h
    obtain rfl := Option.some.inj h
    exact ⟨m, _, rfl, rfl, htype⟩
  · cases h

/-- The types that are read fit, however deep they are nested. -/
theorem fits_of_readWithin {n : Nat} {j : Json} {type : TypeRef}
    (h : readWithin n j = some type) : type.Fits := by
  induction n using Nat.strongRecOn generalizing j type with
  | ind n ih =>
    obtain ⟨m, fields, rfl, -, hread⟩ := exists_of_readWithin h
    obtain ⟨classifier, nullable, arguments⟩ := type
    refine .mk (Classifier.faithful.of_required hread.classifier) fun p hp type htype => ?_
    have harguments := hread.arguments
    unfold Fields.optional at harguments
    split at harguments
    · obtain rfl := Option.some.inj harguments
      cases hp
    · obtain ⟨items, -, hitems⟩ := Option.bind_eq_some_iff.mp harguments
      obtain ⟨j, -, hj⟩ := exists_of_mem_of_mapM hitems hp
      obtain ⟨k, fields, rfl, -, hty⟩ := exists_of_readProjection hj
      obtain ⟨j', hj'⟩ := exists_of_nullable (hty.trans (congrArg some htype))
      exact ih k (by omega) hj'

theorem faithful : Faithful toJson ofJson? TypeRef.Fits where
  reads h := readWithin_toJson h le_rfl
  fits := fits_of_readWithin

theorem fillsIn (n : Nat) : FillsIn fieldNames toJson (readWithin n) defaults := by
  intro j fields type hfields h
  obtain ⟨m, fields', -, hfields', hread⟩ := exists_of_readWithin h
  obtain rfl := Option.some.inj (hfields.symm.trans hfields')
  obtain ⟨classifier, nullable, arguments⟩ := type
  refine ⟨_, by rw [toJson], ?_⟩
  simp only [defaults, List.forall_mem_cons]
  refine ⟨fun hnone => ?_, fun hnone => ?_, nofun⟩
  · obtain rfl := eq_default_of_optional hread.nullable hnone
    rfl
  · obtain rfl := eq_default_of_optional hread.arguments hnone
    rw [Projection.listToJson_eq]
    rfl

end TypeRef

theorem Projection.fillsIn (n : Nat) :
    FillsIn fieldNames toJson (TypeRef.readProjection n) defaults := by
  intro j fields p hfields h
  obtain ⟨m, fields', -, hfields', hread⟩ := TypeRef.exists_of_readProjection h
  obtain rfl := Option.some.inj (hfields.symm.trans hfields')
  obtain ⟨variance, type?⟩ := p
  cases type? with
  | none =>
    refine ⟨_, by rw [toJson], ?_⟩
    simp only [defaults, List.forall_mem_cons]
    exact ⟨fun _ => rfl, nofun⟩
  | some type =>
    refine ⟨_, by rw [toJson], ?_⟩
    simp only [defaults, List.forall_mem_cons]
    refine ⟨fun hnone => ?_, nofun⟩
    cases eq_default_of_optional hread hnone

end Correspondence
