/-!
# Numbered texts

Distinct texts, each known by a number. Numbers are given in the order of first use, starting
at zero, and a text keeps its number for good.
-/

namespace Correspondence.Text

/-- The texts numbered so far. -/
structure Numbering where
  texts : List String := []
deriving DecidableEq, Repr, Inhabited

namespace Numbering

/-- The number of texts. -/
def size (n : Numbering) : Nat :=
  n.texts.length

/-- The number of a text that has one. -/
def find? (n : Numbering) (text : String) : Option Nat :=
  n.texts.idxOf? text

/-- The text with a number. -/
def get? (n : Numbering) (number : Nat) : Option String :=
  n.texts[number]?

/-- Gives a number to a text that has none, and answers its number. -/
def number (n : Numbering) (text : String) : Nat × Numbering :=
  match n.find? text with
  | some i => (i, n)
  | none => (n.size, ⟨n.texts ++ [text]⟩)

/-- The texts in order, repetitions left out. -/
def ofList (texts : List String) : Numbering :=
  texts.foldl (fun n text => (n.number text).2) {}

theorem number_of_mem {n : Numbering} {text : String} (h : text ∈ n.texts) :
    ∃ i, n.number text = (i, n) ∧ n.get? i = some text := by
  cases hi : n.texts.idxOf? text with
  | none => exact absurd h (List.idxOf?_eq_none_iff.mp hi)
  | some i =>
    refine ⟨i, by simp [number, find?, hi], ?_⟩
    obtain ⟨hlt, heq, -⟩ := List.findIdx?_eq_some_iff_getElem.mp hi
    simp only [beq_iff_eq] at heq
    simp [get?, List.getElem?_eq_getElem hlt, heq]

theorem number_of_not_mem {n : Numbering} {text : String} (h : text ∉ n.texts) :
    n.number text = (n.size, ⟨n.texts ++ [text]⟩) := by
  simp [number, find?, List.idxOf?_eq_none_iff.mpr h]

end Numbering

end Correspondence.Text
