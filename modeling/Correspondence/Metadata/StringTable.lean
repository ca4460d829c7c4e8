import Correspondence.Metadata.Error
import Correspondence.Text.Numbering

/-!
# String tables

The strings that the descriptors of one unit refer to. A string stands in the table once, and its
number fits into 32 bits.
-/

namespace Correspondence

/-- The strings of one unit. -/
structure StringTable where
  strings : Text.Numbering := {}
deriving DecidableEq, Repr, Inhabited

/-- Steps on a string table. What they have added stays, also where they fail. -/
abbrev TableM := EStateM MetadataError StringTable

namespace StringTable

/-- The number of strings. -/
def size (t : StringTable) : Nat :=
  t.strings.size

/-- The strings in order. -/
def toList (t : StringTable) : List String :=
  t.strings.texts

/-- The strings in order, repetitions left out. -/
def ofList (strings : List String) : StringTable :=
  ⟨.ofList strings⟩

/-- The string with a number. -/
def get (t : StringTable) (id : StringId) : Except MetadataError String :=
  match t.strings.get? id.index with
  | some text => .ok text
  | none => .error (.stringOutOfRange id t.size)

/-- Adds a string that the table does not have. -/
def insert (t : StringTable) (text : String) : StringTable :=
  ⟨(t.strings.number text).2⟩

end StringTable

namespace TableM

/-- The number for a position. -/
def number (position : Nat) : TableM StringId :=
  if position < UInt32.size then return ⟨position⟩ else throw (.stringTableFull position)

/-- The number of a string, which is added where it is missing and there is a number for it. -/
def intern (text : String) : TableM StringId := do
  let t ← get
  match t.strings.find? text with
  | some position => number position
  | none =>
    let id ← number t.size
    set (t.insert text)
    return id

end TableM

namespace StringTable

/-- The number of a string, and the table that has the string. -/
def intern (t : StringTable) (text : String) : Except MetadataError (StringId × StringTable) :=
  match TableM.intern text t with
  | .ok id t' => .ok (id, t')
  | .error e _ => .error e

theorem get_eq_ok_iff {t : StringTable} {id : StringId} {text : String} :
    t.get id = .ok text ↔ t.toList[id.index]? = some text := by
  unfold get
  cases h : t.strings.get? id.index <;> simp_all [Text.Numbering.get?, toList]

end StringTable

end Correspondence
