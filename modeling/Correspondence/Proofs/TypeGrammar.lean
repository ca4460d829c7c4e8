import Correspondence.Fixture.TypeText
import Correspondence.Proofs.Indexing
import Mathlib.Data.List.Basic
import Mathlib.Data.List.TakeWhile

/-!
# The grammar of types in text

Reading accepts exactly the texts that the grammar gives to a type, with that type as the result. The bound
on the number of steps is never met.
-/

namespace Correspondence.Fixture.TypeText

/-- As many spaces. -/
def spaces (n : Nat) : List Char :=
  List.replicate n ' '

/-- The question mark, where values may be absent. -/
def mark (nullable : Bool) : List Char :=
  if nullable then ['?'] else []

/-- Whether a text may be a name: it has characters, all of which may be part of one. -/
def IsName (name : String) : Prop :=
  name.toList ≠ [] ∧ ∀ c ∈ name.toList, isNameChar c

instance (name : String) : Decidable (IsName name) :=
  decidable_of_iff (name.toList ≠ [] ∧ name.toList.all isNameChar) (by simp [IsName])

/-- Whether a name may be that of an argument, which is a star where it starts with one. -/
def IsUnstarred (name : String) : Prop :=
  name.toList.head? ≠ some '*'

instance (name : String) : Decidable (IsUnstarred name) :=
  inferInstanceAs (Decidable (_ ≠ _))

mutual
/-- Whether a text is that of a type. -/
inductive Writes : TypeText → List Char → Prop
  | plain {name : String} {nullable : Bool} (before : Nat) (hname : IsName name) :
      Writes (.mk name [] nullable) (spaces before ++ (name.toList ++ mark nullable))
  | generic {name : String} {arguments : List ArgumentText} {nullable : Bool} {text : List Char}
      (before : Nat) (hname : IsName name) (h : WritesArguments arguments text) :
      Writes (.mk name arguments nullable)
        (spaces before ++ (name.toList ++ '<' :: (text ++ mark nullable)))
/-- Whether a text is that of arguments, up to the closing bracket. -/
inductive WritesArguments : List ArgumentText → List Char → Prop
  | last {argument : ArgumentText} {text : List Char} (h : WritesArgument argument text) :
      WritesArguments [argument] (text ++ ['>'])
  | cons {argument : ArgumentText} {arguments : List ArgumentText} {text more : List Char}
      (h : WritesArgument argument text) (hmore : WritesArguments arguments more) :
      WritesArguments (argument :: arguments) (text ++ ',' :: more)
/-- Whether a text is that of an argument. The spaces before a type are those before the argument. -/
inductive WritesArgument : ArgumentText → List Char → Prop
  | star (before after : Nat) : WritesArgument .star (spaces before ++ '*' :: spaces after)
  | type {name : String} {arguments : List ArgumentText} {nullable : Bool} {text : List Char}
      (after : Nat) (hstar : IsUnstarred name) (h : Writes (.mk name arguments nullable) text) :
      WritesArgument (.type (.mk name arguments nullable)) (text ++ spaces after)
end

/-- Whether a text goes on as one may after an argument. -/
def Separates (rest : List Char) : Prop :=
  ∃ c rest', rest = c :: rest' ∧ (c = ',' ∨ c = '>')

/-- Whether a text goes on as one may after a type. -/
def Follows (rest : List Char) : Prop :=
  ∀ c ∈ rest.head?, c = ' ' ∨ c = ',' ∨ c = '>'

variable {n before : Nat} {name : String} {type : TypeText} {argument : ArgumentText}
  {arguments : List ArgumentText} {nullable : Bool} {text rest tail : List Char}

/-! ## The parts of a text -/

/-- Characters with some property, and what follows them, are told apart. -/
theorem cut_append {p : Char → Bool} (htext : ∀ c ∈ text, p c) (htail : ∀ c ∈ tail.head?, ¬ p c) :
    (text ++ tail).takeWhile p = text ∧ (text ++ tail).dropWhile p = tail := by
  have hstop : tail.takeWhile p = [] ∧ tail.dropWhile p = tail := by
    cases tail with
    | nil => simp
    | cons c tail => simp [htail c rfl]
  rw [List.takeWhile_append_of_pos htext, List.dropWhile_append_of_pos htext, hstop.1, hstop.2]
  simp

/-- A text is cut at the first character that does not have some property. -/
theorem exists_cut (p : Char → Bool) (text : List Char) : ∃ start tail, text = start ++ tail ∧
    (∀ c ∈ start, p c) ∧ ∀ c ∈ tail.head?, ¬ p c := by
  refine ⟨text.takeWhile p, text.dropWhile p, List.takeWhile_append_dropWhile.symm, ?_, ?_⟩
  · intro c hc
    exact List.mem_takeWhile_imp hc
  · intro c hc hp
    have hnot := List.head?_dropWhile_not p text
    rw [Option.mem_def.mp hc] at hnot
    simp [hp] at hnot

theorem dropSpaces_spaces_append (before : Nat) (h : ∀ c ∈ tail.head?, c ≠ ' ') :
    dropSpaces (spaces before ++ tail) = tail :=
  (cut_append (by simp [spaces]) (by simpa using h)).2

/-- A text is cut after the spaces at its start. -/
theorem exists_spaces (text : List Char) :
    ∃ before tail, text = spaces before ++ tail ∧ ∀ c ∈ tail.head?, c ≠ ' ' := by
  obtain ⟨start, tail, rfl, hstart, htail⟩ := exists_cut (· = ' ') text
  have hspaces : start = spaces start.length :=
    List.eq_replicate_of_mem fun c hc => by simpa using hstart c hc
  exact ⟨start.length, tail, by rw [← hspaces], by simpa using htail⟩

theorem IsName.head? (h : IsName name) (tail : List Char) :
    (name.toList ++ tail).head? = name.toList.head? :=
  List.head?_append_of_ne_nil _ h.1

theorem IsName.head (h : IsName name) (tail : List Char) :
    ∀ c ∈ (name.toList ++ tail).head?, c ≠ ' ' := by
  intro c hc
  rw [h.head?] at hc
  have hchar := h.2 c (List.mem_of_mem_head? hc)
  rintro rfl
  revert hchar
  decide

/-- A text has no name after the spaces at its start, or it is cut into these, the name and the rest. -/
theorem exists_name (text : List Char) : (dropSpaces text).takeWhile isNameChar = [] ∨
    ∃ before name tail, text = spaces before ++ (String.toList name ++ tail) ∧ IsName name ∧
      ∀ c ∈ tail.head?, ¬ isNameChar c := by
  obtain ⟨before, text, rfl, htext⟩ := exists_spaces text
  obtain ⟨name, tail, rfl, hname, htail⟩ := exists_cut isNameChar text
  rw [dropSpaces_spaces_append before htext, (cut_append hname htail).1]
  by_cases hempty : name = []
  · exact .inl hempty
  · exact .inr ⟨before, .ofList name, tail, by simp, ⟨by simpa using hempty, by simpa using hname⟩, htail⟩

/-! ## One step -/

theorem readType_nameless (n : Nat) (h : (dropSpaces text).takeWhile isNameChar = []) :
    readType n text = .error .expectedName := by
  cases n with
  | zero => rfl
  | succ n => simp [readType, h]

theorem readType_dropSpaces (n : Nat) (text : List Char) : readType n (dropSpaces text) = readType n text := by
  obtain ⟨before, tail, rfl, htail⟩ := exists_spaces text
  have hidem : dropSpaces tail = tail := dropSpaces_spaces_append 0 htail
  rw [dropSpaces_spaces_append before htail]
  cases n with
  | zero => rfl
  | succ n => rw [readType, readType, hidem, dropSpaces_spaces_append before htail]

theorem readType_plain (n before : Nat) (hname : IsName name)
    (htail : ∀ c ∈ tail.head?, ¬ isNameChar c ∧ c ≠ '<') :
    readType (n + 1) (spaces before ++ (name.toList ++ tail)) = .ok (finish name.toList [] tail) := by
  have hchars : ∀ c ∈ tail.head?, ¬ isNameChar c := fun c hc => (htail c hc).1
  rw [readType, dropSpaces_spaces_append before (hname.head tail)]
  simp only [cut_append hname.2 hchars, hname.1, if_false]
  split
  · exact absurd rfl (htail '<' rfl).2
  · rfl

theorem readType_generic (n before : Nat) (hname : IsName name) (text : List Char) :
    readType (n + 1) (spaces before ++ (name.toList ++ '<' :: text)) =
      (readArguments n text).map fun read => finish name.toList read.1 read.2 := by
  have hchars : ∀ c ∈ ('<' :: text).head?, ¬ isNameChar c := by simp [isNameChar]
  rw [readType, dropSpaces_spaces_append before (hname.head _)]
  simp only [cut_append hname.2 hchars, hname.1, if_false]
  cases readArguments n text <;> rfl

theorem finish_mark (name : String) (arguments : List ArgumentText) (nullable : Bool)
    (h : Follows rest) :
    finish name.toList arguments (mark nullable ++ rest) = (.mk name arguments nullable, rest) := by
  cases nullable with
  | true => simp [mark, finish]
  | false =>
    simp only [mark, Bool.false_eq_true, if_false, List.nil_append]
    unfold finish
    split
    · simp [Follows] at h
    · rw [String.ofList_toList]

theorem exists_mark (name : String) (arguments : List ArgumentText) (text : List Char) :
    ∃ nullable rest, text = mark nullable ++ rest ∧
      finish name.toList arguments text = (.mk name arguments nullable, rest) := by
  unfold finish
  rw [String.ofList_toList]
  split
  · exact ⟨true, _, rfl, rfl⟩
  · exact ⟨false, _, rfl, rfl⟩

theorem readArgument_star (n : Nat) (rest : List Char) :
    readArgument n ('*' :: rest) = .ok (.star, rest) := by
  cases n <;> rfl

theorem readArgument_type (n : Nat) (h : text.head? ≠ some '*') :
    readArgument (n + 1) text = (readType n text).map fun read => (.type read.1, read.2) := by
  rw [readArgument]
  · cases readType n text <;> rfl
  · rintro rest rfl
    simp at h

/-! ## Texts of the grammar are read -/

theorem not_isNameChar_mark (h : Follows rest) :
    ∀ c ∈ (mark nullable ++ rest).head?, ¬ isNameChar c ∧ c ≠ '<' := by
  intro c hc
  cases nullable with
  | true =>
    obtain rfl : '?' = c := by simpa [mark] using hc
    decide
  | false =>
    rcases h c (by simpa [mark] using hc) with rfl | rfl | rfl <;> decide

theorem Follows.spaces (h : Separates rest) (after : Nat) : Follows (spaces after ++ rest) := by
  obtain ⟨c, rest, rfl, hc⟩ := h
  intro d hd
  cases after with
  | zero =>
    obtain rfl : c = d := by simpa [TypeText.spaces] using hd
    exact .inr hc
  | succ after =>
    left
    simpa [TypeText.spaces, List.replicate_succ, eq_comm] using hd

theorem dropSpaces_separates (h : Separates rest) (after : Nat) :
    dropSpaces (spaces after ++ rest) = rest := by
  obtain ⟨c, rest, rfl, hc⟩ := h
  apply dropSpaces_spaces_append
  rcases hc with rfl | rfl <;> simp

theorem Writes.head_dropSpaces (h : Writes (.mk name arguments nullable) text) (rest : List Char) :
    (dropSpaces (text ++ rest)).head? = name.toList.head? := by
  cases h with
  | plain before hname =>
    rw [List.append_assoc, List.append_assoc, dropSpaces_spaces_append before (hname.head _), hname.head?]
  | generic before hname h =>
    rw [List.append_assoc, List.append_assoc, dropSpaces_spaces_append before (hname.head _), hname.head?]

-- The induction is on the number of steps. A derivation is taken apart once in each of the functions, so the
-- three theorems call each other as these do.
mutual
/-- The text of a type is read up to its end, where a text may go on after a type. -/
theorem readType_append : ∀ {n : Nat} {type : TypeText} {text : List Char} (rest : List Char),
    Writes type text → Follows rest → 3 * text.length + 1 ≤ n → readType n (text ++ rest) = .ok (type, rest)
  | n + 1, _, _, rest, .plain before hname, hrest, _ => by
    rw [List.append_assoc, List.append_assoc, readType_plain n before hname (not_isNameChar_mark hrest),
      finish_mark _ _ _ hrest]
  | n + 1, _, _, rest, @Writes.generic _ _ nullable text before hname h, hrest, hn => by
    simp only [List.length_append, List.length_cons] at hn
    have hread := readArguments_append (n := n) (mark nullable ++ rest) h (by omega)
    simp only [List.append_assoc, List.cons_append]
    rw [readType_generic n before hname, hread]
    simp only [Except.map]
    rw [finish_mark _ _ _ hrest]
/-- The text of arguments is read, whatever follows it. -/
theorem readArguments_append : ∀ {n : Nat} {arguments : List ArgumentText} {text : List Char}
    (rest : List Char), WritesArguments arguments text → 3 * text.length + 3 ≤ n →
      readArguments n (text ++ rest) = .ok (arguments, rest)
  | n + 1, _, _, rest, .last h, hn => by
    simp only [List.length_append, List.length_cons] at hn
    have hrest : Separates ('>' :: rest) := ⟨_, _, rfl, .inr rfl⟩
    obtain ⟨after, hread⟩ := readArgument_append (n := n) h hrest (by omega)
    simp only [List.append_assoc, List.cons_append, List.nil_append]
    simp only [readArguments, hread, dropSpaces_separates hrest]
  | n + 1, _, _, rest, @WritesArguments.cons _ _ _ more h hmore, hn => by
    simp only [List.length_append, List.length_cons] at hn
    have hrest : Separates (',' :: (more ++ rest)) := ⟨_, _, rfl, .inl rfl⟩
    obtain ⟨after, hread⟩ := readArgument_append (n := n) h hrest (by omega)
    have hreads := readArguments_append (n := n) rest hmore (by omega)
    simp only [List.append_assoc, List.cons_append]
    simp only [readArguments, hread, dropSpaces_separates hrest, hreads]
/-- The text of an argument is read without the spaces at both ends. -/
theorem readArgument_append : ∀ {n : Nat} {argument : ArgumentText} {text rest : List Char},
    WritesArgument argument text → Separates rest → 3 * text.length + 2 ≤ n →
      ∃ after, readArgument n (dropSpaces (text ++ rest)) = .ok (argument, spaces after ++ rest)
  | n, _, _, rest, .star before after, hrest, _ => by
    rw [List.append_assoc, dropSpaces_spaces_append before (by simp), List.cons_append]
    exact ⟨after, readArgument_star n _⟩
  | n + 1, _, _, rest, .type after hstar h, hrest, hn => by
    simp only [List.length_append] at hn
    have hread := readType_append (n := n) (spaces after ++ rest) h (.spaces hrest after) (by omega)
    rw [← readType_dropSpaces] at hread
    rw [List.append_assoc, readArgument_type n (h.head_dropSpaces _ ▸ hstar), hread]
    exact ⟨after, rfl⟩
end

/-! ## Texts that are read are in the grammar -/

theorem dropSpaces_cases (text : List Char) : ∃ before, text = spaces before ++ dropSpaces text ∧
    ∀ c ∈ (dropSpaces text).head?, c ≠ ' ' := by
  obtain ⟨before, tail, rfl, htail⟩ := exists_spaces text
  rw [dropSpaces_spaces_append before htail]
  exact ⟨before, rfl, htail⟩

mutual
/-- What is read as a type starts with its text. -/
theorem writes_of_readType : ∀ {n : Nat} {text rest : List Char} {type : TypeText},
    readType n text = .ok (type, rest) → ∃ start, text = start ++ rest ∧ Writes type start
  | 0, _, _, _, h => by cases h
  | n + 1, text, rest, type, h => by
    rcases exists_name text with hnone | ⟨before, name, tail, rfl, hname, htail⟩
    · rw [readType_nameless _ hnone] at h
      cases h
    by_cases hbracket : tail.head? = some '<'
    · obtain ⟨tail, rfl⟩ := List.head?_eq_some_iff.mp hbracket
      rw [readType_generic n before hname] at h
      obtain ⟨⟨arguments, rest'⟩, hread, hfinish⟩ := Except.map_eq_ok_iff.mp h
      obtain ⟨start, rfl, hstart⟩ := writes_of_readArguments hread
      obtain ⟨nullable, rest', rfl, hmark⟩ := exists_mark name arguments rest'
      obtain ⟨rfl, rfl⟩ := Prod.mk.inj (hmark.symm.trans hfinish)
      refine ⟨_, ?_, .generic before hname hstart⟩
      simp
    · rw [readType_plain n before hname fun c hc => ⟨htail c hc, ?_⟩] at h
      · obtain ⟨nullable, rest', rfl, hmark⟩ := exists_mark name [] tail
        obtain ⟨rfl, rfl⟩ := Prod.mk.inj (hmark.symm.trans (Except.ok.inj h))
        refine ⟨_, ?_, .plain before hname⟩
        simp
      · rintro rfl
        exact hbracket hc
/-- What is read as arguments starts with their text. -/
theorem writes_of_readArguments : ∀ {n : Nat} {text rest : List Char} {arguments : List ArgumentText},
    readArguments n text = .ok (arguments, rest) →
      ∃ start, text = start ++ rest ∧ WritesArguments arguments start
  | 0, _, _, _, h => by cases h
  | n + 1, text, rest, arguments, h => by
    rw [readArguments] at h
    split at h
    · cases h
    rename_i argument rest' hread
    obtain ⟨start, rfl, hstart⟩ := writes_of_readArgument hread
    obtain ⟨after, hafter, -⟩ := dropSpaces_cases rest'
    split at h
    · rename_i rest'' hclose
      obtain ⟨rfl, rfl⟩ := Prod.mk.inj (Except.ok.inj h)
      refine ⟨_, ?_, .last (hstart after)⟩
      rw [hafter, hclose]
      simp
    · rename_i rest'' hcomma
      split at h
      · rename_i hmore
        obtain ⟨rfl, rfl⟩ := Prod.mk.inj (Except.ok.inj h)
        obtain ⟨more, rfl, hwrites⟩ := writes_of_readArguments hmore
        refine ⟨_, ?_, .cons (hstart after) hwrites⟩
        rw [hafter, hcomma]
        simp
      · cases h
    · cases h
/-- What is read as an argument, from behind the spaces before it, starts with its text. -/
theorem writes_of_readArgument : ∀ {n : Nat} {text rest : List Char} {argument : ArgumentText},
    readArgument n (dropSpaces text) = .ok (argument, rest) →
      ∃ start, text = start ++ rest ∧ ∀ after, WritesArgument argument (start ++ spaces after)
  | n, text, rest, argument, h => by
    obtain ⟨before, htext, hhead⟩ := dropSpaces_cases text
    by_cases hstar : (dropSpaces text).head? = some '*'
    · obtain ⟨rest', heq⟩ := List.head?_eq_some_iff.mp hstar
      rw [heq, readArgument_star] at h
      obtain ⟨rfl, rfl⟩ := Prod.mk.inj (Except.ok.inj h)
      refine ⟨spaces before ++ ['*'], ?_, fun after => ?_⟩
      · rw [htext, heq]
        simp
      · simpa using WritesArgument.star before after
    · cases n with
      | zero =>
        rw [readArgument] at h
        · cases h
        · rintro rest heq
          simp [heq] at hstar
      | succ n =>
        rw [readArgument_type n hstar, readType_dropSpaces] at h
        obtain ⟨⟨⟨name, arguments, nullable⟩, rest'⟩, hread, hsame⟩ := Except.map_eq_ok_iff.mp h
        obtain ⟨rfl, rfl⟩ := Prod.mk.inj hsame
        obtain ⟨start, rfl, hstart⟩ := writes_of_readType hread
        rw [hstart.head_dropSpaces] at hstar
        exact ⟨start, rfl, fun after => .type after hstar hstart⟩
end

/-! ## The number of steps -/

theorem WritesArgument.ne_nil (h : WritesArgument argument text) : text ≠ [] := by
  cases h with
  | star => simp
  | type after hstar h =>
    cases h with
    | plain before hname => simp [hname.1]
    | generic => simp

theorem length_dropSpaces_le (text : List Char) : (dropSpaces text).length ≤ text.length :=
  (List.dropWhile_sublist _).length_le

mutual
/-- Steps beyond a number that the length of the text settles make no difference for a type. -/
theorem readType_congr : ∀ {n m : Nat} {text : List Char}, 3 * text.length + 1 ≤ n →
    3 * text.length + 1 ≤ m → readType n text = readType m text
  | n + 1, m + 1, text, hn, hm => by
    rcases exists_name text with hnone | ⟨before, name, tail, rfl, hname, htail⟩
    · rw [readType_nameless _ hnone, readType_nameless _ hnone]
    by_cases hbracket : tail.head? = some '<'
    · obtain ⟨tail, rfl⟩ := List.head?_eq_some_iff.mp hbracket
      simp only [List.length_append, List.length_cons] at hn hm
      rw [readType_generic n before hname, readType_generic m before hname,
        readArguments_congr (n := n) (m := m) (by omega) (by omega)]
    · have hplain : ∀ c ∈ tail.head?, ¬ isNameChar c ∧ c ≠ '<' := by
        intro c hc
        refine ⟨htail c hc, ?_⟩
        rintro rfl
        exact hbracket hc
      rw [readType_plain n before hname hplain, readType_plain m before hname hplain]
/-- Nor do they for arguments. -/
theorem readArguments_congr : ∀ {n m : Nat} {text : List Char}, 3 * text.length + 3 ≤ n →
    3 * text.length + 3 ≤ m → readArguments n text = readArguments m text
  | n + 1, m + 1, text, hn, hm => by
    have hlength := length_dropSpaces_le text
    rw [readArguments, readArguments, readArgument_congr (n := n) (m := m) (by omega) (by omega)]
    split
    · rfl
    · rename_i argument rest hread
      obtain ⟨start, rfl, hstart⟩ := writes_of_readArgument hread
      have hpos := List.length_pos_iff.mpr (hstart 0).ne_nil
      have hrest := length_dropSpaces_le rest
      simp only [spaces, List.replicate_zero, List.append_nil, List.length_append] at hpos hn hm
      split
      · rfl
      · rename_i more hmore
        rw [hmore, List.length_cons] at hrest
        rw [readArguments_congr (n := n) (m := m) (by omega) (by omega)]
      · rfl
/-- Nor do they for an argument. -/
theorem readArgument_congr : ∀ {n m : Nat} {text : List Char}, 3 * text.length + 2 ≤ n →
    3 * text.length + 2 ≤ m → readArgument n text = readArgument m text
  | n + 1, m + 1, text, hn, hm => by
    by_cases hstar : text.head? = some '*'
    · obtain ⟨rest, rfl⟩ := List.head?_eq_some_iff.mp hstar
      rw [readArgument_star, readArgument_star]
    · rw [readArgument_type n hstar, readArgument_type m hstar,
        readType_congr (n := n) (m := m) (by omega) (by omega)]
end

/-- A whole text is read as a type exactly if it is the text of that type. -/
theorem ofText_eq_ok_iff {text : String} {type : TypeText} :
    ofText text = .ok type ↔ Writes type text.toList := by
  constructor
  · intro h
    unfold ofText at h
    split at h
    · rename_i hread
      obtain rfl := Except.ok.inj h
      obtain ⟨start, htext, hwrites⟩ := writes_of_readType hread
      rwa [htext, List.append_nil]
    · cases h
    · cases h
  · intro h
    have hread := readType_append (n := 3 * text.length + 1) [] h (by simp [Follows])
      (by rw [String.length_toList])
    rw [List.append_nil] at hread
    simp only [ofText, hread]

end Correspondence.Fixture.TypeText
