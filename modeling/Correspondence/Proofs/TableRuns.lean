import Correspondence.Proofs.Interning
import Correspondence.Proofs.JsonForms

/-!
# Runs of a string table

A table that starts empty or is read from its written form is given strings, one after the other. It holds the
distinct strings in the order of their first use, as many as there are numbers for, and each of them keeps its
number. A string that is refused leaves the table as it is.
-/

namespace Correspondence

namespace TableM

variable {t : StringTable} {text : String}

/-- The table that a step leaves, also where it fails. -/
def after {α : Type} (x : TableM α) (t : StringTable) : StringTable :=
  match x t with
  | .ok _ t' => t'
  | .error _ t' => t'

theorem after_intern_of_mem (h : text ∈ t.toList) : after (intern text) t = t := by
  rw [after, intern_eq, if_pos h]
  by_cases hsmall : t.toList.idxOf text < UInt32.size <;> simp only [hsmall, if_true, if_false]

theorem after_intern_of_full (h : UInt32.size ≤ t.size) (text : String) : after (intern text) t = t := by
  by_cases hmem : text ∈ t.toList
  · exact after_intern_of_mem hmem
  · rw [after, intern_of_not_mem hmem, if_neg (Nat.not_lt.mpr h)]

/-- A string is added if it is new and there is a number for it. -/
theorem toList_after_intern (t : StringTable) (text : String) : (after (intern text) t).toList =
    if text ∈ t.toList ∨ UInt32.size ≤ t.size then t.toList else t.toList ++ [text] := by
  by_cases hmem : text ∈ t.toList
  · rw [after_intern_of_mem hmem, if_pos (.inl hmem)]
  · by_cases hfull : UInt32.size ≤ t.size
    · rw [after_intern_of_full hfull, if_pos (.inr hfull)]
    · rw [after, intern_of_not_mem hmem, if_pos (Nat.not_le.mp hfull), if_neg (not_or.mpr ⟨hmem, hfull⟩)]
      rfl

end TableM

namespace StringTable

open TableM (after)

variable {t t' : StringTable} {text : String} {id : StringId}

/-- The table after strings are interned, one after the other, of which some may be refused. -/
def run (t : StringTable) (texts : List String) : StringTable :=
  texts.foldl (fun t text => after (TableM.intern text) t) t

theorem run_of_full (h : UInt32.size ≤ t.size) (texts : List String) : t.run texts = t := by
  induction texts with
  | nil => rfl
  | cons text texts ih => rw [run, List.foldl_cons, TableM.after_intern_of_full h, ← run, ih]

theorem run_concat (t : StringTable) (texts : List String) (text : String) :
    t.run (texts ++ [text]) = after (TableM.intern text) (t.run texts) := by
  simp [run]

theorem prefix_run (t : StringTable) (texts : List String) : t.toList <+: (t.run texts).toList := by
  induction texts using List.reverseRecOn with
  | nil => exact List.prefix_rfl
  | append_singleton texts text ih =>
    rw [run_concat, TableM.toList_after_intern]
    split
    · exact ih
    · exact ih.trans (List.prefix_append _ _)

/-- The table has the distinct strings in the order of first use, up to the last number. -/
theorem toList_run (h : t.toList.Nodup) (texts : List String) :
    (t.run texts).toList = (t.toList ++ texts).eraseDups.take (max t.size UInt32.size) := by
  induction texts using List.reverseRecOn with
  | nil =>
    rw [List.append_nil, eraseDups_of_nodup h, List.take_of_length_le]
    · rfl
    · exact Nat.le_max_left _ _
  | append_singleton texts text ih =>
    generalize hdistinct : (t.toList ++ texts).eraseDups = used at ih
    have hsize : (t.run texts).size = min (max t.size UInt32.size) used.length := by
      have hlength := congrArg List.length ih
      rwa [List.length_take] at hlength
    have hgrown : t.size ≤ (t.run texts).size := (prefix_run t texts).length_le
    have hmem : text ∈ used ↔ text ∈ t.toList ++ texts := by rw [← hdistinct, List.mem_eraseDups]
    rw [run_concat, TableM.toList_after_intern, ← List.append_assoc, eraseDups_concat, ih, hdistinct]
    by_cases hused : text ∈ used
    · -- What was used before has a number, or there are no numbers left.
      rw [if_pos (hmem.mp hused), if_pos]
      by_cases hfits : used.length ≤ max t.size UInt32.size
      · left
        rwa [List.take_of_length_le hfits]
      · right
        omega
    · rw [if_neg (mt hmem.mpr hused)]
      by_cases hfull : UInt32.size ≤ (t.run texts).size
      · rw [if_pos (.inr hfull), List.take_append_of_le_length (by omega)]
      · have hnew : text ∉ used.take (max t.size UInt32.size) := fun h => hused (List.mem_of_mem_take h)
        rw [if_neg (not_or.mpr ⟨hnew, hfull⟩), List.take_of_length_le (by omega),
          List.take_of_length_le (by rw [List.length_append, List.length_singleton]; omega)]

/-- A string that was given a number has it from then on, and no other string is given it. -/
theorem intern_run_of_intern (h : TableM.intern text t = .ok id t') (later : List String) :
    (t'.run later).get id = .ok text ∧
      TableM.intern text (t'.run later) = .ok id (t'.run later) ∧
      ∀ other t'', TableM.intern other (t'.run later) = .ok id t'' → other = text := by
  have hgiven := intern_intern (intern_eq_ok_iff_run.mpr h)
  have hagain := intern_of_grown hgiven (prefix_run t' later)
  refine ⟨get_of_intern hagain, intern_eq_ok_iff_run.mp hagain, ?_⟩
  intro other t'' hother
  have hnext := intern_eq_ok_iff_run.mpr hother
  have hgrown := (prefix_run t' later).trans (prefix_of_intern hnext)
  have htext := get_of_intern (intern_of_grown hgiven hgrown)
  have hget := get_of_intern (intern_intern hnext)
  exact Except.ok.inj (hget.symm.trans htext)

theorem get_eq_error_iff {e : MetadataError} :
    t.get id = .error e ↔ t.size ≤ id.index ∧ e = .stringOutOfRange id t.size := by
  have hnone : t.strings.get? id.index = none ↔ t.size ≤ id.index := List.getElem?_eq_none_iff
  unfold get
  cases h : t.strings.get? id.index with
  | none =>
    rw [h] at hnone
    simp [hnone.mp rfl, eq_comm]
  | some text =>
    rw [h] at hnone
    simp [← hnone]

/-- Whatever strings an empty table or one that is read is given, they are pairwise distinct in the table and
stand there in the order of their first use, up to the last number. A string keeps its number for good and
shares it with no other one, a new string gets the next number, and exactly the numbers from the size on denote
nothing. A string is refused exactly where its number is too large, and then the table stays as it is. -/
theorem table_run {start : StringTable} (hstart : start = {} ∨ ∃ j, ofJson? j = some start)
    (texts : List String) :
    let t := start.run texts
    t.toList.Nodup ∧
    t.toList = (start.toList ++ texts).eraseDups.take (max start.size UInt32.size) ∧
    (∀ text id t', TableM.intern text t = .ok id t' → ∀ later,
      (t'.run later).get id = .ok text ∧
      TableM.intern text (t'.run later) = .ok id (t'.run later) ∧
      ∀ other t'', TableM.intern other (t'.run later) = .ok id t'' → other = text) ∧
    (∀ text id, t.get id = .ok text → id.index < UInt32.size → TableM.intern text t = .ok id t) ∧
    (∀ text, text ∉ t.toList → t.size < UInt32.size →
      TableM.intern text t = .ok ⟨t.size⟩ ⟨⟨t.toList ++ [text]⟩⟩) ∧
    (∀ id e, t.get id = .error e ↔ t.size ≤ id.index ∧ e = .stringOutOfRange id t.size) ∧
    (∀ text e t', TableM.intern text t = .error e t' ↔
      UInt32.size ≤ t.toList.idxOf text ∧ e = .stringTableFull (t.toList.idxOf text) ∧ t' = t) ∧
    ∀ text e t', TableM.intern text t = .error e t' → ∀ later, t'.run later = t := by
  have hnodup : start.toList.Nodup := by
    rcases hstart with rfl | ⟨j, hread⟩
    · exact List.nodup_nil
    · exact StringTable.faithful.fits hread
  have htable := toList_run hnodup texts
  intro t
  have ht : t.toList.Nodup := by
    rw [htable]
    exact (nodup_eraseDups _).sublist (List.take_sublist _ _)
  refine ⟨ht, htable, fun text id t' => intern_run_of_intern, ?_, ?_, fun id e => get_eq_error_iff,
    fun text e t' => TableM.intern_eq_error_iff, ?_⟩
  · intro text id hget hsmall
    exact intern_eq_ok_iff_run.mp (intern_of_get ht hsmall hget)
  · intro text hnew hroom
    rw [TableM.intern_of_not_mem hnew, if_pos hroom]
  · intro text e t' herror later
    have hfull := TableM.size_le_of_intern_eq_error herror
    obtain ⟨-, -, rfl⟩ := TableM.intern_eq_error_iff.mp herror
    exact run_of_full hfull later

/-- An array of strings with a repetition. -/
def repeated : Json :=
  .array [.string "b", .string "a", .string "b"]

/-- The repetition is left out when the array is read, the known string keeps its number, and the new one gets
the next number once. -/
theorem table_repeated : ∃ start, ofJson? repeated = some start ∧
    (start.run ["c", "a", "c"]).toList = ["b", "a", "c"] ∧
    TableM.intern "c" start = .ok ⟨2⟩ (start.run ["c"]) ∧
    (start.run ["c", "a", "c"]).get ⟨2⟩ = .ok "c" ∧
    TableM.intern "c" (start.run ["c", "a", "c"]) = .ok ⟨2⟩ (start.run ["c", "a", "c"]) := by
  have hread : ofJson? repeated = some ⟨⟨["b", "a"]⟩⟩ := by decide
  have hnew : "c" ∉ ["b", "a"] := by decide
  have hdistinct : (["b", "a"] ++ ["c", "a", "c"]).eraseDups = ["b", "a", "c"] := by decide +kernel
  obtain ⟨-, -, hkeeps, -, hnext, -⟩ := table_run (.inr ⟨repeated, hread⟩) []
  obtain ⟨-, htable, -⟩ := table_run (.inr ⟨repeated, hread⟩) ["c", "a", "c"]
  have hfirst := hnext "c" hnew (by decide)
  obtain ⟨hget, hagain, -⟩ := hkeeps "c" ⟨2⟩ _ hfirst ["a", "c"]
  refine ⟨_, hread, ?_, hfirst, hget, hagain⟩
  rw [htable, toList, hdistinct, List.take_of_length_le (by decide)]

end StringTable

end Correspondence
