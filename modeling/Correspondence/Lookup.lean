/-!
# Finite maps

A map is the list of its bindings, the latest first, so that a later binding hides an earlier one.
-/

namespace Correspondence

/-- A finite map from `α` to `β`. -/
structure Lookup (α β : Type) where
  bindings : List (α × β) := []

namespace Lookup

variable {α β : Type} [DecidableEq α]

/-- The map that binds nothing. -/
def empty : Lookup α β := ⟨[]⟩

instance : Inhabited (Lookup α β) := ⟨empty⟩

/-- The value that `key` is bound to. -/
def find? (m : Lookup α β) (key : α) : Option β :=
  m.bindings.lookup key

/-- Binds `key` to `value`, whatever it was bound to before. -/
def insert (m : Lookup α β) (key : α) (value : β) : Lookup α β :=
  ⟨(key, value) :: m.bindings⟩

/-- Adds the bindings of `n`, which win over those of `m`. -/
def extend (m n : Lookup α β) : Lookup α β :=
  ⟨n.bindings ++ m.bindings⟩

@[simp] theorem find?_empty (key : α) : (empty : Lookup α β).find? key = none := rfl

theorem find?_insert (m : Lookup α β) (key other : α) (value : β) :
    (m.insert key value).find? other = if other = key then some value else m.find? other := by
  by_cases h : other = key
  · simp [find?, insert, h]
  · have hb : (other == key) = false := by simp [h]
    simp [find?, insert, List.lookup_cons, h, hb]

@[simp] theorem find?_insert_self (m : Lookup α β) (key : α) (value : β) :
    (m.insert key value).find? key = some value := by
  simp [find?_insert]

theorem find?_insert_of_ne (m : Lookup α β) {key other : α} (value : β) (h : other ≠ key) :
    (m.insert key value).find? other = m.find? other := by
  simp [find?_insert, h]

theorem find?_extend (m n : Lookup α β) (key : α) :
    (m.extend n).find? key = (n.find? key).or (m.find? key) := by
  simp only [find?, extend]
  induction n.bindings with
  | nil => simp
  | cons b bs ih =>
    obtain ⟨k, v⟩ := b
    by_cases h : key = k
    · simp [h]
    · have hb : (key == k) = false := by simp [h]
      simp [List.lookup_cons, hb, ih]

end Lookup

end Correspondence
