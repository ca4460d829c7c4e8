import Correspondence.Metadata.Descriptor
import Mathlib.Data.List.TakeWhile

/-!
# Flags in text

A set of modifiers is read back from its text, with the bits of no modifier. Names hold neither bars
nor blanks and do not look like hexadecimal numbers, so each piece of the text is read as what it
was written for.
-/

namespace Correspondence

namespace Text

theorem digit?_digitChar : ∀ d < 16, digit? 16 d.digitChar = some d := by
  decide

/-- The hexadecimal digits of a number stand for it. -/
theorem foldlM_digit?_toDigits (n : Nat) :
    (Nat.toDigits 16 n).foldlM (fun value c => (digit? 16 c).map (16 * value + ·)) 0 = some n := by
  induction n using Nat.strongRecOn with
  | ind n ih =>
    rw [Nat.toDigits_eq_if (by decide)]
    split
    · rename_i hlt
      simp [digit?_digitChar n hlt]
    · rename_i hle
      have hdiv : n / 16 < n := Nat.div_lt_self (by omega) (by decide)
      have hmod : 16 * (n / 16) + n % 16 = n := Nat.div_add_mod n 16
      simp [List.foldlM_append, ih _ hdiv, digit?_digitChar _ (Nat.mod_lt n (by decide)), hmod]

theorem isHex_of_mem_toDigits {n : Nat} {c : Char} (h : c ∈ Nat.toDigits 16 n) :
    ∃ d < 16, c = d.digitChar := by
  induction n using Nat.strongRecOn with
  | ind n ih =>
    rw [Nat.toDigits_eq_if (by decide)] at h
    split at h
    · rename_i hlt
      exact ⟨n, hlt, List.mem_singleton.mp h⟩
    · rename_i hle
      rcases List.mem_append.mp h with h | h
      · exact ih _ (Nat.div_lt_self (by omega) (by decide)) h
      · exact ⟨n % 16, Nat.mod_lt n (by decide), List.mem_singleton.mp h⟩

/-- Whether a text can stand between bars: it is not empty, and it holds neither blanks nor bars. -/
def IsPiece (text : List Char) : Prop :=
  text ≠ [] ∧ ∀ c ∈ text, isBlank c = false ∧ c ≠ '|'

instance (text : List Char) : Decidable (IsPiece text) :=
  have : Decidable (∀ c ∈ text, isBlank c = false ∧ c ≠ '|') := List.decidableBAll _ text
  inferInstanceAs (Decidable (_ ∧ _))

theorem isPiece_hex (n : Nat) : IsPiece ('0' :: 'x' :: Nat.toDigits 16 n) := by
  refine ⟨by simp, fun c hc => ?_⟩
  have hdigit : ∀ d < 16, isBlank d.digitChar = false ∧ d.digitChar ≠ '|' := by decide
  simp only [List.mem_cons] at hc
  rcases hc with rfl | rfl | hc
  · decide
  · decide
  · obtain ⟨d, hd, rfl⟩ := isHex_of_mem_toDigits hc
    exact hdigit d hd

/-- A hexadecimal number is read back. -/
theorem number?_toDigits (n : Nat) : number? 16 (Nat.toDigits 16 n) = some n := by
  have hfold := foldlM_digit?_toDigits n
  cases hdigits : Nat.toDigits 16 n with
  | nil => exact absurd hdigits Nat.toDigits_ne_nil
  | cons c digits => rw [hdigits] at hfold; exact hfold

theorem trimStart_append {blanks text : List Char} (hblanks : ∀ c ∈ blanks, isBlank c = true) :
    trimStart (blanks ++ text) = trimStart text := by
  rw [trimStart, List.dropWhile_append_of_pos hblanks, trimStart]

theorem trimStart_of_isPiece {text : List Char} (h : IsPiece text) (rest : List Char) :
    trimStart (text ++ rest) = text ++ rest := by
  obtain ⟨hne, hclear⟩ := h
  cases text with
  | nil => exact absurd rfl hne
  | cons c text =>
    simp [trimStart, (hclear c List.mem_cons_self).1]

/-- Blanks around a piece do not matter. -/
theorem trim_of_isPiece {before text after : List Char} (hbefore : ∀ c ∈ before, isBlank c = true)
    (h : IsPiece text) (hafter : ∀ c ∈ after, isBlank c = true) :
    trim (before ++ (text ++ after)) = text := by
  have hreverse : IsPiece text.reverse := by simpa [IsPiece] using h
  rw [trim, trimStart_append hbefore, trimStart_of_isPiece h after, List.reverse_append,
    trimStart_append (by simpa using hafter)]
  have hstart := trimStart_of_isPiece hreverse []
  rw [List.append_nil] at hstart
  rw [hstart, List.reverse_reverse]

/-- A text that starts with a piece is not blank. -/
theorem trim_append_ne_nil {text rest : List Char} (h : IsPiece text) :
    trim (text ++ rest) ≠ [] := by
  intro hnil
  rw [trim, trimStart_of_isPiece h rest, List.reverse_eq_nil_iff, trimStart,
    List.dropWhile_eq_nil_iff] at hnil
  obtain ⟨c, hc⟩ := List.exists_mem_of_ne_nil text h.1
  have hblank := hnil c (by simp [hc])
  rw [(h.2 c hc).1] at hblank
  cases hblank

theorem pieces_of_not_mem {c : Char} {text : List Char} (h : c ∉ text) :
    pieces c text = [text] := by
  induction text with
  | nil => rfl
  | cons d text ih =>
    obtain ⟨hne, hmem⟩ := List.ne_and_not_mem_of_not_mem_cons h
    simp [pieces, Ne.symm hne, ih hmem]

theorem pieces_append {c : Char} {text rest : List Char} (h : c ∉ text) :
    pieces c (text ++ c :: rest) = text :: pieces c rest := by
  induction text with
  | nil => simp [pieces]
  | cons d text ih =>
    obtain ⟨hne, hmem⟩ := List.ne_and_not_mem_of_not_mem_cons h
    simp [pieces, Ne.symm hne, ih hmem]

/-- The pieces of a text that was joined by bars. -/
theorem trim_pieces_intercalate {text : List Char} {texts : List (List Char)}
    (h : ∀ t ∈ text :: texts, IsPiece t) {before : List Char} (hbefore : ∀ c ∈ before, c = ' ') :
    (pieces '|' (before ++ List.intercalate [' ', '|', ' '] (text :: texts))).map trim =
      text :: texts := by
  have hblank : ∀ c ∈ before, isBlank c = true := fun c hc => by rw [hbefore c hc]; decide
  have htext := h text List.mem_cons_self
  have hbar : '|' ∉ before ++ text := by
    intro hmem
    rcases List.mem_append.mp hmem with hmem | hmem
    · exact absurd (hbefore _ hmem) (by decide)
    · exact (htext.2 _ hmem).2 rfl
  induction texts generalizing text before with
  | nil =>
    have htrim : trim (before ++ (text ++ [])) = text := trim_of_isPiece hblank htext (by simp)
    rw [List.append_nil] at htrim
    simp [pieces_of_not_mem hbar, htrim]
  | cons next texts ih =>
    have hsplit : before ++ List.intercalate [' ', '|', ' '] (text :: next :: texts) =
        (before ++ (text ++ [' '])) ++
          '|' :: ([' '] ++ List.intercalate [' ', '|', ' '] (next :: texts)) := by
      simp
    have hbar' : '|' ∉ before ++ (text ++ [' ']) := by
      simpa [← List.append_assoc] using hbar
    have hnext := h next (by simp)
    have hspace : ∀ c ∈ [' '], isBlank c = true := List.forall_mem_singleton.mpr rfl
    rw [hsplit, pieces_append hbar', List.map_cons, trim_of_isPiece hblank htext hspace]
    rw [ih (fun t ht => h t (List.mem_cons_of_mem _ ht)) (by simp) hspace hnext]
    simpa using fun hmem => (hnext.2 _ hmem).2 rfl

end Text

/-- Whether every value is the one with its name. -/
class Named.Distinct (α : Type) [Named α] : Prop where
  ofName?_name (a : α) : Named.ofName? (Named.name a) = some a

/-- Whether the names of modifiers can be told apart, from each other and from other pieces of a
text. There is a bit for each modifier. -/
class Flags.Legible (μ : Type) [Named μ] : Prop extends Named.Distinct μ where
  mem_all (m : μ) : m ∈ (Named.all : List μ)
  nodup : (Named.all : List μ).Nodup
  isPiece (m : μ) : Text.IsPiece (Named.name m).toList
  stripStart?_name (m : μ) : Text.stripStart? ['0', 'x'] (Named.name m).toList = none
  length_le : (Named.all : List μ).length ≤ 32

namespace Flags

variable {μ : Type}

theorem empty_lt : (empty : Flags μ).bits < UInt32.size :=
  show 0 < UInt32.size by decide

theorem union_lt {f g : Flags μ} (hf : f.bits < UInt32.size) (hg : g.bits < UInt32.size) :
    (f.union g).bits < UInt32.size :=
  Nat.or_lt_two_pow (n := 32) hf hg

/-- The modifiers of all sets of a list. -/
def unionAll (sets : List (Flags μ)) : Flags μ :=
  sets.foldl union empty

theorem testBit_unionAll (sets : List (Flags μ)) (i : Nat) :
    (unionAll sets).bits.testBit i = sets.any fun f => f.bits.testBit i := by
  have hfold (f : Flags μ) :
      (sets.foldl union f).bits.testBit i =
        (f.bits.testBit i || sets.any fun f => f.bits.testBit i) := by
    induction sets generalizing f with
    | nil => simp
    | cons g sets ih => simp [ih, union, Nat.testBit_or, Bool.or_assoc]
  simp [unionAll, hfold, empty]

variable [DecidableEq μ] [Named μ]

theorem testBit_single (m : μ) (i : Nat) :
    (single m).bits.testBit i = decide (position m = i) := by
  rw [single, Nat.one_shiftLeft, Nat.testBit_two_pow]

omit [DecidableEq μ] in
theorem testBit_unnamed (flags : Flags μ) (i : Nat) :
    flags.unnamed.testBit i =
      (decide ((Named.all : List μ).length ≤ i) && flags.bits.testBit i) := by
  simp only [unnamed, Nat.testBit_shiftLeft, Nat.testBit_shiftRight, ge_iff_le]
  by_cases h : (Named.all : List μ).length ≤ i
  · simp [h, Nat.add_sub_cancel' h]
  · simp [h]

/-- The pieces of the text of a set, each with what it stands for. -/
def parts (flags : Flags μ) : List (String × Flags μ) :=
  ((Named.all : List μ).filter flags.contains).map (fun m => (Named.name m, single m)) ++
    if flags.unnamed = 0 then [] else [("0x" ++ Text.hex flags.unnamed, ⟨flags.unnamed⟩)]

theorem text_eq (flags : Flags μ) : flags.text = " | ".intercalate (flags.parts.map Prod.fst) := by
  unfold text parts
  split <;> simp [Function.comp_def]

variable [Legible μ]

theorem position_lt (m : μ) : position m < (Named.all : List μ).length :=
  List.idxOf_lt_length_iff.mpr (Legible.mem_all m)

theorem single_lt (m : μ) : (single m).bits < UInt32.size := by
  have h : position m < 32 := (position_lt m).trans_le Legible.length_le
  rw [single, Nat.one_shiftLeft]
  exact Nat.pow_lt_pow_right (by decide) h

theorem exists_position_eq {i : Nat} (h : i < (Named.all : List μ).length) :
    ∃ m : μ, position m = i :=
  ⟨(Named.all : List μ)[i], Legible.nodup.idxOf_getElem i h⟩

/-- A set has the modifiers of its parts. -/
theorem unionAll_parts (flags : Flags μ) : unionAll (flags.parts.map Prod.snd) = flags := by
  suffices h : (unionAll (flags.parts.map Prod.snd)).bits = flags.bits by
    cases flags
    exact congrArg Flags.mk h
  refine Nat.eq_of_testBit_eq fun i => ?_
  have hnamed : (((Named.all : List μ).filter flags.contains).any
        fun m => (single m).bits.testBit i) =
      (decide (i < (Named.all : List μ).length) && flags.bits.testBit i) := by
    rw [Bool.eq_iff_iff]
    simp only [List.any_eq_true, List.mem_filter, testBit_single, decide_eq_true_eq,
      Bool.and_eq_true, contains]
    constructor
    · rintro ⟨m, ⟨-, hm⟩, rfl⟩
      exact ⟨position_lt m, hm⟩
    · rintro ⟨hlt, hbit⟩
      obtain ⟨m, rfl⟩ := exists_position_eq hlt
      exact ⟨m, ⟨Legible.mem_all m, hbit⟩, rfl⟩
  have hunnamed : ((if flags.unnamed = 0 then [] else [(⟨flags.unnamed⟩ : Flags μ)]).any
        fun f => f.bits.testBit i) =
      (decide ((Named.all : List μ).length ≤ i) && flags.bits.testBit i) := by
    rw [← testBit_unnamed]
    split
    · rename_i hzero
      simp [hzero]
    · simp
  have hsets : flags.parts.map Prod.snd =
      ((Named.all : List μ).filter flags.contains).map single ++
        if flags.unnamed = 0 then [] else [⟨flags.unnamed⟩] := by
    unfold parts
    split <;> simp [Function.comp_def]
  rw [testBit_unionAll, hsets, List.any_append, hunnamed, List.any_map]
  refine (congrArg (· || _) hnamed).trans ?_
  rcases Nat.lt_or_ge i (Named.all : List μ).length with h | h
  · simp [h, Nat.not_le.mpr h]
  · simp [h, Nat.not_lt.mpr h]

/-- Every piece stands for what it was written for. -/
theorem ofPiece?_of_mem_parts {flags : Flags μ} (h : flags.bits < UInt32.size)
    {x : String × Flags μ} (hx : x ∈ flags.parts) :
    Text.IsPiece x.1.toList ∧ ofPiece? x.1.toList = some x.2 := by
  rcases List.mem_append.mp hx with hx | hx
  · obtain ⟨m, -, rfl⟩ := List.mem_map.mp hx
    refine ⟨Legible.isPiece m, ?_⟩
    simp [ofPiece?, Legible.stripStart?_name, Named.Distinct.ofName?_name]
  · split at hx
    · cases hx
    obtain rfl := List.mem_singleton.mp hx
    have hdigits : ("0x" ++ Text.hex flags.unnamed).toList =
        '0' :: 'x' :: Nat.toDigits 16 flags.unnamed := by simp [Text.hex]
    have hplus : Text.stripStart? ['+'] (Nat.toDigits 16 flags.unnamed) = none := by
      rw [Option.eq_none_iff_forall_ne_some]
      intro rest hrest
      have hmem : '+' ∈ Nat.toDigits 16 flags.unnamed := by
        simp [Text.stripStart?_eq_some_iff.mp hrest]
      obtain ⟨d, hd, heq⟩ := Text.isHex_of_mem_toDigits hmem
      have hall : ∀ d < 16, '+' ≠ d.digitChar := by decide
      exact hall d hd heq
    have hlt : flags.unnamed < UInt32.size := by
      refine Nat.lt_of_le_of_lt ?_ h
      rw [unnamed, Nat.shiftRight_eq_div_pow, Nat.shiftLeft_eq]
      exact Nat.div_mul_le_self _ _
    rw [hdigits]
    refine ⟨Text.isPiece_hex _, ?_⟩
    simp [ofPiece?, Text.stripStart?, hplus, Text.number?_toDigits, hlt]

omit [Legible μ] in
/-- What is read from pieces is the union of what they stand for. -/
private theorem foldlM_ofPiece? {l : List (String × Flags μ)}
    (h : ∀ x ∈ l, ofPiece? x.1.toList = some x.2) (f : Flags μ) :
    (l.map fun x => x.1.toList).foldlM (fun flags piece => (ofPiece? piece).map flags.union) f =
      some ((l.map Prod.snd).foldl union f) := by
  induction l generalizing f with
  | nil => rfl
  | cons x l ih =>
    simp only [List.map_cons, List.foldlM_cons, h x List.mem_cons_self, Option.map_some]
    exact ih (fun y hy => h y (List.mem_cons_of_mem _ hy)) _

/-- A set of 32 bits is read back from its text. -/
theorem ofText?_text {flags : Flags μ} (h : flags.bits < UInt32.size) :
    ofText? flags.text = some flags := by
  have htext : flags.text.toList =
      List.intercalate [' ', '|', ' '] (flags.parts.map fun x => x.1.toList) := by
    rw [text_eq, String.toList_intercalate, List.map_map]
    rfl
  have hpieces : ∀ t ∈ flags.parts.map fun x => x.1.toList, Text.IsPiece t := by
    intro t ht
    obtain ⟨x, hx, rfl⟩ := List.mem_map.mp ht
    exact (ofPiece?_of_mem_parts h hx).1
  have hread := foldlM_ofPiece? (fun x hx => (ofPiece?_of_mem_parts h hx).2) empty
  rw [← unionAll, unionAll_parts] at hread
  rw [ofText?, htext]
  generalize (flags.parts.map fun x => x.1.toList) = texts at hpieces hread
  cases texts with
  | nil => exact hread
  | cons text texts =>
    obtain ⟨rest, hrest⟩ : ∃ rest,
        List.intercalate [' ', '|', ' '] (text :: texts) = text ++ rest := by
      cases texts with
      | nil => exact ⟨[], by simp⟩
      | cons next texts => exact ⟨_, by rw [List.intercalate_cons_cons, List.append_assoc]⟩
    have hnothing : ∀ c ∈ ([] : List Char), c = ' ' := by simp
    have htrim := Text.trim_pieces_intercalate hpieces hnothing
    rw [← htrim, List.foldlM_map] at hread
    rw [if_neg (hrest ▸ Text.trim_append_ne_nil (hpieces text List.mem_cons_self))]
    exact hread

omit [Legible μ] in
private theorem lt_of_foldlM {l : List (List Char)} {f flags : Flags μ}
    (hone : ∀ {piece : List Char} {flags : Flags μ}, ofPiece? piece = some flags →
      flags.bits < UInt32.size) (hf : f.bits < UInt32.size)
    (h : l.foldlM (fun flags piece => (ofPiece? (Text.trim piece)).map flags.union) f =
      some flags) : flags.bits < UInt32.size := by
  induction l generalizing f with
  | nil => exact Option.some.inj h ▸ hf
  | cons piece l ih =>
    rw [List.foldlM_cons] at h
    obtain ⟨g, hg, h⟩ := Option.bind_eq_some_iff.mp h
    obtain ⟨one, hpiece, rfl⟩ := Option.map_eq_some_iff.mp hg
    exact ih (union_lt hf (hone hpiece)) h

/-- What is read from a text has 32 bits. -/
theorem lt_of_ofText? {text : String} {flags : Flags μ} (h : ofText? text = some flags) :
    flags.bits < UInt32.size := by
  unfold ofText? at h
  split at h
  · exact Option.some.inj h ▸ empty_lt
  refine lt_of_foldlM (fun {piece one} hone => ?_) empty_lt h
  unfold ofPiece? at hone
  split at hone
  · obtain ⟨bits, hbits, rfl⟩ := Option.map_eq_some_iff.mp hone
    simpa using (Option.filter_eq_some_iff.mp hbits).2
  · obtain ⟨m, -, rfl⟩ := Option.map_eq_some_iff.mp hone
    exact single_lt m

end Flags

theorem Flags.legible_of_all {μ : Type} [Named μ] (mem_all : ∀ m : μ, m ∈ (Named.all : List μ))
    (nodup : (Named.all : List μ).Nodup) (length_le : (Named.all : List μ).length ≤ 32)
    (hnames : ∀ m ∈ (Named.all : List μ), Named.ofName? (Named.name m) = some m ∧
      Text.IsPiece (Named.name m).toList ∧
        Text.stripStart? ['0', 'x'] (Named.name m).toList = none) : Legible μ where
  ofName?_name m := (hnames m (mem_all m)).1
  mem_all := mem_all
  nodup := nodup
  isPiece m := (hnames m (mem_all m)).2.1
  stripStart?_name m := (hnames m (mem_all m)).2.2
  length_le := length_le

instance : Flags.Legible ClassModifier :=
  Flags.legible_of_all (fun m => by cases m <;> decide) (by decide) (by decide) (by decide)

instance : Flags.Legible FunctionModifier :=
  Flags.legible_of_all (fun m => by cases m <;> decide) (by decide) (by decide) (by decide)

instance : Flags.Legible PropertyModifier :=
  Flags.legible_of_all (fun m => by cases m <;> decide) (by decide) (by decide) (by decide)

end Correspondence
