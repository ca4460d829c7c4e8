import Correspondence.Proofs.DescriptorForms

/-!
# Repeated strings

Metadata is written with an array of strings, and its descriptors name a string by its position there. A
table has no string twice, so a repetition is left out when the array is read, and the strings behind it
move forward. A number denotes the string that it was written for exactly if no string up to there is a
repetition.
-/

namespace Correspondence

namespace Text.Numbering

/-- Numbering texts adds some of them behind the texts that have numbers, in order and each of them new. -/
theorem exists_foldl_number (n : Numbering) (texts : List String) :
    ∃ added, (texts.foldl (fun n text => (n.number text).2) n).texts = n.texts ++ added ∧
      added.Sublist texts ∧ ∀ text ∈ added, text ∉ n.texts := by
  induction texts generalizing n with
  | nil => exact ⟨[], by simp⟩
  | cons text texts ih =>
    rw [List.foldl_cons]
    by_cases hmem : text ∈ n.texts
    · obtain ⟨i, hi, -⟩ := number_of_mem hmem
      obtain ⟨added, heq, hsub, hnew⟩ := ih n
      rw [hi]
      exact ⟨added, heq, hsub.cons text, hnew⟩
    · obtain ⟨added, heq, hsub, hnew⟩ := ih ⟨n.texts ++ [text]⟩
      rw [number_of_not_mem hmem]
      refine ⟨text :: added, by simpa using heq, hsub.cons_cons text, ?_⟩
      intro other hother
      rcases List.mem_cons.mp hother with rfl | hother
      · exact hmem
      · intro hold
        exact hnew other hother (List.mem_append_left _ hold)

theorem mem_texts_foldl {n : Numbering} {texts : List String} {text : String} (h : text ∈ texts) :
    text ∈ (texts.foldl (fun n text => (n.number text).2) n).texts := by
  induction texts generalizing n with
  | nil => cases h
  | cons first texts ih =>
    rw [List.foldl_cons]
    rcases List.mem_cons.mp h with rfl | h
    · obtain ⟨added, heq, -, -⟩ := exists_foldl_number (n.number text).2 texts
      rw [heq]
      apply List.mem_append_left
      by_cases hmem : text ∈ n.texts
      · obtain ⟨i, hi, -⟩ := number_of_mem hmem
        rwa [hi]
      · rw [number_of_not_mem hmem]
        simp
    · exact ih h

theorem ofList_of_nodup {texts : List String} (h : texts.Nodup) : ofList texts = ⟨texts⟩ :=
  foldl_number (by simpa using h)

/-- Where a text is repeated, there are fewer numbers than texts. -/
theorem length_ofList_lt {texts : List String} (h : ¬ texts.Nodup) :
    (ofList texts).texts.length < texts.length := by
  obtain ⟨added, heq, hsub, -⟩ := exists_foldl_number {} texts
  have htexts : (ofList texts).texts = added := heq
  rw [htexts]
  apply Nat.lt_of_le_of_ne hsub.length_le
  intro hlength
  obtain rfl := hsub.eq_of_length hlength
  exact h (htexts ▸ nodup_foldl List.nodup_nil)

/-- A text has its position as number exactly if there is no repetition up to it. -/
theorem get?_ofList_iff {texts : List String} {i : Nat} (hi : i < texts.length) :
    (ofList texts).get? i = some texts[i] ↔ (texts.take (i + 1)).Nodup := by
  -- The texts behind position `i` cannot change the numbers of those up to it.
  let start := texts.take (i + 1)
  have hlength : start.length = i + 1 := by simp [start]; omega
  obtain ⟨added, heq, -, hnew⟩ := exists_foldl_number (ofList start) (texts.drop (i + 1))
  have htexts : (ofList texts).texts = (ofList start).texts ++ added := by
    rw [← heq, ofList, ofList, ← List.foldl_append, List.take_append_drop]
  have hget : (ofList texts).get? i = ((ofList start).texts ++ added)[i]? := by rw [get?, htexts]
  rw [hget]
  constructor
  · intro h
    by_contra hrepeats
    have hlt : (ofList start).texts.length < start.length := length_ofList_lt hrepeats
    rw [List.getElem?_append_right (by omega)] at h
    have hmem : texts[i] ∈ start := List.mem_take_iff_getElem.mpr ⟨i, by omega, rfl⟩
    exact hnew _ (List.mem_of_getElem? h) (mem_texts_foldl hmem)
  · intro h
    have hstart : (ofList start).texts = start := by rw [ofList_of_nodup h]
    rw [hstart, List.getElem?_append_left (by omega)]
    simp [start]

end Text.Numbering

namespace StringTable

theorem toList_ofList_of_nodup {written : List String} (h : written.Nodup) :
    (ofList written).toList = written :=
  congrArg Text.Numbering.texts (Text.Numbering.ofList_of_nodup h)

theorem get_ofList_iff {written : List String} {i : Nat} (hi : i < written.length) :
    (ofList written).get ⟨i⟩ = .ok written[i] ↔ (written.take (i + 1)).Nodup :=
  get_eq_ok_iff.trans (Text.Numbering.get?_ofList_iff hi)

theorem forall_get_ofList_iff {written : List String} :
    (∀ i (hi : i < written.length), (ofList written).get ⟨i⟩ = .ok written[i]) ↔ written.Nodup := by
  constructor
  · intro h
    by_contra hrepeats
    -- There are fewer numbers than strings, so the last one denotes nothing.
    have hlt : (ofList written).toList.length < written.length :=
      Text.Numbering.length_ofList_lt hrepeats
    have hlast := get_eq_ok_iff.mp (h (ofList written).toList.length hlt)
    rw [List.getElem?_eq_none (Nat.le_refl _)] at hlast
    cases hlast
  · intro h i hi
    exact (get_ofList_iff hi).mpr (h.sublist (List.take_sublist _ _))

end StringTable

namespace Metadata

/-- The array of strings in a record whose fields have the given names. -/
def writtenIn? (names : List String) (j : Json) : Option (List String) := do
  let fields ← j.record? names
  Fields.required fields "strings" (Json.list? Json.string?)

/-- The array of strings that metadata is written with. -/
def written? : Json → Option (List String)
  | .object [("Class", metadata)] => writtenIn? ["strings", "class"] metadata
  | .object [("FileFacade", metadata)] => writtenIn? ["strings", "package"] metadata
  | .object [("MultiFileClassPart", .object fields)] =>
    Fields.required fields "metadata" (writtenIn? ["strings", "package"])
  | _ => none

theorem strings_of_required {fields : Fields} {written : List String} {strings : StringTable}
    (hwritten : fields.required "strings" (Json.list? Json.string?) = some written)
    (h : fields.required "strings" StringTable.ofJson? = some strings) :
    strings = .ofList written := by
  obtain ⟨j, hj, h⟩ := Option.bind_eq_some_iff.mp h
  obtain ⟨j', hj', hwritten⟩ := Option.bind_eq_some_iff.mp hwritten
  obtain rfl := Option.some.inj (hj.symm.trans hj')
  rw [StringTable.ofJson?, hwritten] at h
  exact (Option.some.inj h).symm

theorem strings_of_class {j : Json} {written : List String} {m : ClassMetadata}
    (hwritten : writtenIn? ["strings", "class"] j = some written)
    (h : ClassMetadata.ofJson? j = some m) : m.strings = .ofList written := by
  obtain ⟨fields, hfields, hread⟩ := (ClassMetadata.readsRecord j m).mp h
  obtain ⟨fields', hfields', hwritten⟩ := Option.bind_eq_some_iff.mp hwritten
  obtain rfl := Option.some.inj (hfields.symm.trans hfields')
  exact strings_of_required hwritten hread.strings

theorem strings_of_package {j : Json} {written : List String} {m : PackageMetadata}
    (hwritten : writtenIn? ["strings", "package"] j = some written)
    (h : PackageMetadata.ofJson? j = some m) : m.strings = .ofList written := by
  obtain ⟨fields, hfields, hread⟩ := (PackageMetadata.readsRecord j m).mp h
  obtain ⟨fields', hfields', hwritten⟩ := Option.bind_eq_some_iff.mp hwritten
  obtain rfl := Option.some.inj (hfields.symm.trans hfields')
  exact strings_of_required hwritten hread.strings

/-- Metadata is read with the table of the strings that it is written with, repetitions left out. -/
theorem strings?_of_ofJson? {j : Json} {written : List String} {m : Metadata}
    (hwritten : written? j = some written) (h : ofJson? j = some m) :
    m.strings? = some (.ofList written) := by
  unfold written? at hwritten
  split at hwritten
  · obtain ⟨m, hm, rfl⟩ := Option.map_eq_some_iff.mp h
    exact congrArg some (strings_of_class hwritten hm)
  · obtain ⟨m, hm, rfl⟩ := Option.map_eq_some_iff.mp h
    exact congrArg some (strings_of_package hwritten hm)
  · obtain ⟨m, hm, h⟩ := Option.bind_eq_some_iff.mp h
    obtain ⟨facade, -, h⟩ := Option.bind_eq_some_iff.mp h
    obtain rfl := Option.some.inj h
    obtain ⟨j, hj, hm⟩ := Option.bind_eq_some_iff.mp hm
    obtain ⟨j', hj', hwritten⟩ := Option.bind_eq_some_iff.mp hwritten
    obtain rfl := Option.some.inj (hj.symm.trans hj')
    exact congrArg some (strings_of_package hwritten hm)
  · cases hwritten

/-- Metadata is read with a table in which a number denotes the string at that position of the array exactly
if there is no repetition up to there. So all numbers do exactly if the array has no repetition, and they
denote nothing else then. -/
theorem get_of_written? {j : Json} {written : List String} (h : written? j = some written) :
    ofJson? j = none ∨ ∃ m strings, ofJson? j = some m ∧ m.strings? = some strings ∧
      (∀ i (hi : i < written.length),
        strings.get ⟨i⟩ = .ok written[i] ↔ (written.take (i + 1)).Nodup) ∧
      ((∀ i (hi : i < written.length), strings.get ⟨i⟩ = .ok written[i]) ↔ written.Nodup) ∧
      (written.Nodup → ∀ id text, strings.get id = .ok text ↔ written[id.index]? = some text) := by
  cases hread : ofJson? j with
  | none => exact .inl rfl
  | some m =>
    refine .inr ⟨m, _, rfl, strings?_of_ofJson? h hread, fun i hi => StringTable.get_ofList_iff hi, ?_, ?_⟩
    · exact StringTable.forall_get_ofList_iff
    · intro hnodup id text
      rw [StringTable.get_eq_ok_iff, StringTable.toList_ofList_of_nodup hnodup]

/-- A class with a function, whose name is repeated in the array of strings. -/
def repeating : Json :=
  .object [("Class", .object [
    ("strings", .array [.string "p/C", .string "p/C", .string "f", .string "g",
      .string "kotlin/Unit", .string "kotlin/Int"]),
    ("class", .object [
      ("fq_name", .nat 0), ("kind", .string "Class"),
      ("functions", .array [.object [
        ("name", .nat 2),
        ("return_type", .object [("classifier", .object [("Class", .nat 4)])])]])])])]

/-- The strings of that class. -/
def repeatingStrings : List String :=
  ["p/C", "p/C", "f", "g", "kotlin/Unit", "kotlin/Int"]

theorem get_repeating : ∃ m strings, ofJson? repeating = some m ∧ m.strings? = some strings ∧
    strings.get ⟨0⟩ = .ok "p/C" ∧ strings.get ⟨2⟩ ≠ .ok "f" := by
  have hread : (ofJson? repeating).isSome := by decide +kernel
  have hwritten : written? repeating = some repeatingStrings := by decide +kernel
  rcases get_of_written? hwritten with hnone | ⟨m, strings, hm, hstrings, hget, -, -⟩
  · rw [hnone] at hread
    cases hread
  · exact ⟨m, strings, hm, hstrings, (hget 0 (by decide)).mpr (by decide),
      fun h => absurd ((hget 2 (by decide)).mp h) (by decide)⟩

/-- The name of the function is read as that of another one. -/
theorem not_forall_get_of_written? :
    ¬ ∀ (j : Json) (written : List String), written? j = some written →
      ofJson? j = none ∨ ∃ m strings, ofJson? j = some m ∧ m.strings? = some strings ∧
        ∀ i (hi : i < written.length), strings.get ⟨i⟩ = .ok written[i] := by
  intro h
  have hread : (ofJson? repeating).isSome := by decide +kernel
  have hwritten : written? repeating = some repeatingStrings := by decide +kernel
  rcases h repeating repeatingStrings hwritten with hnone | ⟨m, strings, hm, hstrings, hget⟩
  · rw [hnone] at hread
    cases hread
  · obtain rfl := Option.some.inj ((strings?_of_ofJson? hwritten hm).symm.trans hstrings)
    have hname : (StringTable.ofList repeatingStrings).get ⟨2⟩ = .ok "g" := by decide
    have hwrong : Except.ok "g" = Except.ok (ε := MetadataError) "f" := hname.symm.trans (hget 2 (by decide))
    exact absurd (Except.ok.inj hwrong) (by decide)

end Metadata

end Correspondence
