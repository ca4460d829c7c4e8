import Correspondence.Named
import Correspondence.Text.Blank
import Correspondence.Text.Cut
import Correspondence.Text.Digits

/-!
# Flags

Sets of modifiers. Each modifier has one bit, the first the lowest, and bits without a modifier are
kept as they are. In text the names of the modifiers are joined by bars, and the bits without a
modifier follow as a hexadecimal number.
-/

namespace Correspondence

/-- A set of modifiers. -/
structure Flags (μ : Type) where
  bits : Nat := 0
deriving DecidableEq, Repr, Inhabited

namespace Flags

variable {μ : Type} [DecidableEq μ] [Named μ]

/-- The set without modifiers. -/
def empty : Flags μ := ⟨0⟩

/-- The position of the bit of a modifier. -/
def position (m : μ) : Nat :=
  (Named.all : List μ).idxOf m

/-- The set of one modifier. -/
def single (m : μ) : Flags μ :=
  ⟨1 <<< position m⟩

/-- Whether the modifier is in the set. -/
def contains (flags : Flags μ) (m : μ) : Bool :=
  flags.bits.testBit (position m)

/-- The modifiers of both sets. -/
def union (f g : Flags μ) : Flags μ :=
  ⟨f.bits ||| g.bits⟩

/-- The bits of no modifier. -/
def unnamed (flags : Flags μ) : Nat :=
  let count := (Named.all : List μ).length
  flags.bits >>> count <<< count

/-- The set in text. -/
def text (flags : Flags μ) : String :=
  let names := ((Named.all : List μ).filter flags.contains).map Named.name
  " | ".intercalate (names ++ if flags.unnamed = 0 then [] else ["0x" ++ Text.hex flags.unnamed])

/-- The set that one piece of a text stands for: a name, or 32 bits as a hexadecimal number. -/
def ofPiece? (piece : List Char) : Option (Flags μ) :=
  match Text.stripStart? ['0', 'x'] piece with
  | some digits =>
    let digits := (Text.stripStart? ['+'] digits).getD digits
    ((Text.number? 16 digits).filter (· < UInt32.size)).map fun bits => ⟨bits⟩
  | none => (Named.ofName? (String.ofList piece)).map single

/-- The set that a text stands for. Blanks around names do not matter. -/
def ofText? (text : String) : Option (Flags μ) :=
  if Text.trim text.toList = [] then some empty
  else (Text.pieces '|' text.toList).foldlM
    (fun flags piece => (ofPiece? (Text.trim piece)).map flags.union) empty

end Flags

/-- Modifiers of a class. -/
inductive ClassModifier
  | inner
  | data
  | expect
  | external
  | functional
  | value
deriving DecidableEq, Repr

instance : Named ClassModifier where
  all := [.inner, .data, .expect, .external, .functional, .value]
  name
    | .inner => "INNER"
    | .data => "DATA"
    | .expect => "EXPECT"
    | .external => "EXTERNAL"
    | .functional => "FUN"
    | .value => "VALUE"

/-- Modifiers of a function. -/
inductive FunctionModifier
  | inlined
  | infixed
  | tailRecursive
  | suspending
  | operator
  | expect
  | external
deriving DecidableEq, Repr

instance : Named FunctionModifier where
  all := [.inlined, .infixed, .tailRecursive, .suspending, .operator, .expect, .external]
  name
    | .inlined => "INLINE"
    | .infixed => "INFIX"
    | .tailRecursive => "TAILREC"
    | .suspending => "SUSPEND"
    | .operator => "OPERATOR"
    | .expect => "EXPECT"
    | .external => "EXTERNAL"

/-- Modifiers of a property. -/
inductive PropertyModifier
  | mutable
  | constant
  | lateInit
  | delegated
  | expect
  | external
deriving DecidableEq, Repr

instance : Named PropertyModifier where
  all := [.mutable, .constant, .lateInit, .delegated, .expect, .external]
  name
    | .mutable => "VAR"
    | .constant => "CONST"
    | .lateInit => "LATEINIT"
    | .delegated => "DELEGATED"
    | .expect => "EXPECT"
    | .external => "EXTERNAL"

abbrev ClassFlags := Flags ClassModifier

abbrev FunctionFlags := Flags FunctionModifier

abbrev PropertyFlags := Flags PropertyModifier

end Correspondence
