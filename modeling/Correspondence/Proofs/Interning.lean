import Correspondence.Fixture.Metadata
import Correspondence.Proofs.Indexing
import Mathlib.Data.List.Nodup

/-!
# Interning

A string that is given a number keeps it while the table grows, and is given no other one. Steps that meet
names only add strings, and they fail only where there is no number left.
-/

namespace Correspondence

namespace TableM

variable {t t' : StringTable} {text : String}

theorem get_bind {α : Type} (f : StringTable → TableM α) : (get >>= f) t = f t t :=
  rfl

theorem intern_of_mem {i : Nat} (h : t.toList.idxOf? text = some i) :
    intern text t = if i < UInt32.size then .ok ⟨i⟩ t else .error (.stringTableFull i) t := by
  have hfind : t.strings.find? text = some i := h
  simp only [intern, get_bind, hfind, number]
  split <;> rfl

theorem intern_of_not_mem (h : text ∉ t.toList) :
    intern text t = if t.size < UInt32.size then .ok ⟨t.size⟩ ⟨⟨t.toList ++ [text]⟩⟩
      else .error (.stringTableFull t.size) t := by
  have hfind : t.strings.find? text = none := List.idxOf?_eq_none_iff.mpr h
  have hinsert : t.insert text = ⟨⟨t.toList ++ [text]⟩⟩ :=
    congrArg (fun numbered => StringTable.mk numbered.2) (Text.Numbering.number_of_not_mem h)
  simp only [intern, get_bind, hfind, number, ← hinsert]
  split <;> rfl

/-- The number of a string is the first position at which it stands, or the next one. -/
theorem intern_eq (text : String) (t : StringTable) :
    intern text t = if t.toList.idxOf text < UInt32.size
      then .ok ⟨t.toList.idxOf text⟩ (if text ∈ t.toList then t else ⟨⟨t.toList ++ [text]⟩⟩)
      else .error (.stringTableFull (t.toList.idxOf text)) t := by
  have hposition := List.idxOf_eq_getD_idxOf? text t.toList
  cases hi : t.toList.idxOf? text with
  | none =>
    have hnot := List.idxOf?_eq_none_iff.mp hi
    rw [hi, Option.getD_none] at hposition
    rw [intern_of_not_mem hnot, hposition, if_neg hnot]
    rfl
  | some i =>
    have hmem : text ∈ t.toList := by simp [← List.isSome_idxOf?, hi]
    rw [hi, Option.getD_some] at hposition
    rw [intern_of_mem hi, hposition, if_pos hmem]

theorem intern_eq_error_iff {e : MetadataError} : intern text t = .error e t' ↔
    UInt32.size ≤ t.toList.idxOf text ∧ e = .stringTableFull (t.toList.idxOf text) ∧ t' = t := by
  rw [intern_eq]
  by_cases hsmall : t.toList.idxOf text < UInt32.size
  · simp [hsmall, Nat.not_le.mpr hsmall]
  · simp [hsmall, Nat.le_of_not_lt hsmall, eq_comm]

theorem size_le_of_intern_eq_error {e : MetadataError} (h : intern text t = .error e t') :
    UInt32.size ≤ t.size := by
  have hposition := (intern_eq_error_iff.mp h).1
  exact Nat.le_trans hposition List.idxOf_le_length

end TableM

namespace StringTable

variable {t t' : StringTable} {text : String} {id : StringId}

/-- Whether no string has two numbers, and all numbers fit into 32 bits. -/
structure IsProper (t : StringTable) : Prop where
  nodup : t.toList.Nodup
  size_le : t.size ≤ UInt32.size

theorem intern_eq_ok_iff_run : t.intern text = .ok (id, t') ↔ TableM.intern text t = .ok id t' := by
  unfold intern
  split <;> simp_all

theorem intern_eq_ok_iff : t.intern text = .ok (id, t') ↔ id.index < UInt32.size ∧
    (t.toList.idxOf? text = some id.index ∧ t' = t ∨
      text ∉ t.toList ∧ id.index = t.size ∧ t' = ⟨⟨t.toList ++ [text]⟩⟩) := by
  obtain ⟨number⟩ := id
  cases hi : t.toList.idxOf? text with
  | some i =>
    have hmem : text ∈ t.toList := by simp [← List.isSome_idxOf?, hi]
    rw [intern_eq_ok_iff_run, TableM.intern_of_mem hi]
    grind
  | none =>
    have hmem := List.idxOf?_eq_none_iff.mp hi
    rw [intern_eq_ok_iff_run, TableM.intern_of_not_mem hmem]
    grind

/-- A string is refused only where no number is left for it. -/
theorem size_le_of_intern_eq_error {e : MetadataError} (h : t.intern text = .error e) :
    UInt32.size ≤ t.size ∧ ∃ number, e = .stringTableFull number := by
  unfold intern at h
  cases hrun : TableM.intern text t with
  | ok id t' => simp [hrun] at h
  | error e' t' =>
    obtain rfl : e' = e := by simpa [hrun] using h
    exact ⟨TableM.size_le_of_intern_eq_error hrun, _, (TableM.intern_eq_error_iff.mp hrun).2.1⟩

theorem prefix_of_intern (h : t.intern text = .ok (id, t')) : t.toList <+: t'.toList := by
  rcases (intern_eq_ok_iff.mp h).2 with ⟨-, rfl⟩ | ⟨-, -, rfl⟩
  · exact List.prefix_rfl
  · exact List.prefix_append _ _

theorem size_le_of_intern (h : t.intern text = .ok (id, t')) : t'.size ≤ t.size + 1 := by
  rcases (intern_eq_ok_iff.mp h).2 with ⟨-, rfl⟩ | ⟨-, -, rfl⟩
  · omega
  · simp [size, Text.Numbering.size, toList]

/-- A string that has a number keeps it in a table that has grown. -/
theorem intern_of_grown (h : t.intern text = .ok (id, t)) (hgrown : t.toList <+: t'.toList) :
    t'.intern text = .ok (id, t') := by
  obtain ⟨hsmall, hid⟩ := intern_eq_ok_iff.mp h
  refine intern_eq_ok_iff.mpr ⟨hsmall, .inl ⟨?_, rfl⟩⟩
  obtain ⟨added, hadded⟩ := hgrown
  rcases hid with ⟨hi, -⟩ | ⟨hnot, -, ht⟩
  · rw [← hadded, List.idxOf?, List.findIdx?_append, ← List.idxOf?, hi]
    rfl
  · rw [ht] at hnot
    simp [toList] at hnot

/-- A string that was given a number has it from then on. -/
theorem intern_intern (h : t.intern text = .ok (id, t')) : t'.intern text = .ok (id, t') := by
  obtain ⟨hsmall, ⟨hi, rfl⟩ | ⟨hnot, hid, rfl⟩⟩ := intern_eq_ok_iff.mp h
  · exact h
  · refine intern_eq_ok_iff.mpr ⟨hsmall, .inl ⟨?_, rfl⟩⟩
    have hnone : t.toList.findIdx? (· == text) = none := List.idxOf?_eq_none_iff.mpr hnot
    rw [List.idxOf?, toList, List.findIdx?_append, hnone, hid]
    simp [size, Text.Numbering.size, toList]

theorem get_of_intern (h : t.intern text = .ok (id, t)) : t.get id = .ok text := by
  obtain ⟨-, ⟨hi, -⟩ | ⟨hnot, -, ht⟩⟩ := intern_eq_ok_iff.mp h
  · obtain ⟨hlt, heq, -⟩ := List.idxOf?_eq_some_iff.mp hi
    exact get_eq_ok_iff.mpr (List.getElem?_eq_some_iff.mpr ⟨hlt, heq⟩)
  · rw [ht] at hnot
    simp [toList] at hnot

/-- The number of a string is the one at which it stands. -/
theorem intern_of_get (hnodup : t.toList.Nodup) (hsmall : id.index < UInt32.size)
    (h : t.get id = .ok text) : t.intern text = .ok (id, t) := by
  have hposition := idxOf?_eq_some_of_nodup hnodup (get_eq_ok_iff.mp h)
  exact intern_eq_ok_iff.mpr ⟨hsmall, .inl ⟨hposition, rfl⟩⟩

theorem IsProper.intern_of_get (ht : t.IsProper) (h : t.get id = .ok text) :
    t.intern text = .ok (id, t) := by
  have hlt := (List.getElem?_eq_some_iff.mp (get_eq_ok_iff.mp h)).1
  exact StringTable.intern_of_get ht.nodup (Nat.lt_of_lt_of_le hlt ht.size_le) h

theorem IsProper.of_intern (ht : t.IsProper) (h : t.intern text = .ok (id, t')) : t'.IsProper := by
  obtain ⟨hsmall, ⟨-, rfl⟩ | ⟨hnot, hid, rfl⟩⟩ := intern_eq_ok_iff.mp h
  · exact ht
  · constructor
    · simpa [toList, List.nodup_append] using ⟨ht.nodup, fun a ha h => hnot (h ▸ ha)⟩
    · simp only [size, Text.Numbering.size, toList, List.length_append, List.length_singleton] at *
      omega

end StringTable

namespace Fixture

variable {names names' names'' : Names}

/-- Whether some names are others with strings added. -/
structure Names.Extends (names names' : Names) : Prop where
  strings : names.strings.toList <+: names'.strings.toList
  isProper : names.strings.IsProper → names'.strings.IsProper
  scope : names'.scope = names.scope
  nextTypeParameter : names'.nextTypeParameter = names.nextTypeParameter

theorem Names.Extends.refl (names : Names) : names.Extends names :=
  ⟨List.prefix_rfl, id, rfl, rfl⟩

theorem Names.Extends.trans (h : names.Extends names') (h' : names'.Extends names'') :
    names.Extends names'' :=
  ⟨h.strings.trans h'.strings, h'.isProper ∘ h.isProper, h'.scope.trans h.scope,
    h'.nextTypeParameter.trans h.nextTypeParameter⟩

namespace NamesM

variable {α β : Type}

theorem bind_eq_ok_iff {x : NamesM α} {f : α → NamesM β} {b : β} :
    (x >>= f) names = .ok (b, names'') ↔
      ∃ a names', x names = .ok (a, names') ∧ f a names' = .ok (b, names'') :=
  StateT.bind_eq_ok_iff

theorem pure_eq_ok_iff {a b : α} :
    (pure a : NamesM α) names = .ok (b, names') ↔ b = a ∧ names' = names :=
  StateT.pure_eq_ok_iff

theorem get_bind (f : Names → NamesM α) : (get >>= f) names = f names names :=
  rfl

theorem intern_eq_ok_iff {text : String} {id : StringId} :
    intern text names = .ok (id, names') ↔
      names.strings.intern text = .ok (id, names'.strings) ∧ names' = { names with strings := names'.strings } := by
  unfold intern
  cases names.strings.intern text with
  | error e => simp
  | ok read => grind

theorem extends_of_intern {text : String} {id : StringId} (h : intern text names = .ok (id, names')) :
    names.Extends names' ∧ names'.strings.intern text = .ok (id, names'.strings) := by
  obtain ⟨h, hsame⟩ := intern_eq_ok_iff.mp h
  refine ⟨⟨StringTable.prefix_of_intern h, fun hproper => hproper.of_intern h, ?_, ?_⟩,
    StringTable.intern_intern h⟩ <;> rw [hsame]

end NamesM

end Fixture

end Correspondence
