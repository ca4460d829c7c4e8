/-!
# JSON values

The values that documents are read from and written to, and the readers that every document
shares. A reader answers `none` when the value has another shape.
-/

namespace Correspondence

/-- A JSON value. The number `number m e` is `m · 10 ^ (-e)`. It has decimal places, so that `e` is
not zero, if it is written with a fraction or an exponent. -/
inductive Json
  | null
  | bool (value : Bool)
  | number (mantissa : Int) (exponent : Nat)
  | string (value : String)
  | array (items : List Json)
  | object (fields : List (String × Json))
deriving Repr, Inhabited

namespace Json

/-- The number `n`. -/
def nat (n : Nat) : Json := .number n 0

/-- A value that may be absent, absent being `null`. -/
def opt {α : Type} (write : α → Json) : Option α → Json
  | none => .null
  | some a => write a

/-- A list, item by item. -/
def list {α : Type} (write : α → Json) (items : List α) : Json :=
  .array (items.map write)

mutual
/-- How deeply arrays and objects are nested: a bound for every descent into the value. -/
def depth : Json → Nat
  | .array items => depthItems items + 1
  | .object fields => depthFields fields + 1
  | _ => 0
def depthItems : List Json → Nat
  | [] => 0
  | j :: js => max (depth j) (depthItems js)
def depthFields : List (String × Json) → Nat
  | [] => 0
  | (_, j) :: fs => max (depth j) (depthFields fs)
end

/-- A truth value. -/
def bool? : Json → Option Bool
  | .bool b => some b
  | _ => none

/-- A text. -/
def string? : Json → Option String
  | .string s => some s
  | _ => none

/-- A natural number less than `limit`, which is written without decimal places. -/
def natBelow? (limit : Nat) : Json → Option Nat
  | .number (.ofNat n) 0 => if n < limit then some n else none
  | _ => none

/-- A number that fits into 32 bits, as every identifier does. -/
def word? : Json → Option Nat := natBelow? UInt32.size

/-- A number that fits into 32 bits beside one word that stands for no number, as the number of a
name does. -/
def nameNumber? : Json → Option Nat := natBelow? (UInt32.size - 1)

/-- A number that fits into 64 bits, as every count does. -/
def count? : Json → Option Nat := natBelow? UInt64.size

/-- The items of an array. -/
def items? : Json → Option (List Json)
  | .array items => some items
  | _ => none

/-- The fields of an object. -/
def fields? : Json → Option (List (String × Json))
  | .object fields => some fields
  | _ => none

/-- The fields of an object, or of an array that holds them in the order of their names and may end
before the last one. -/
def record? (names : List String) : Json → Option (List (String × Json))
  | .object fields => some fields
  | .array items => if items.length ≤ names.length then some (names.zip items) else none
  | _ => none

/-- An array whose items are all readable. -/
def list? {α : Type} (read : Json → Option α) (j : Json) : Option (List α) :=
  j.items?.bind (·.mapM read)

/-- A value or `null`. -/
def opt? {α : Type} (read : Json → Option α) : Json → Option (Option α)
  | .null => some none
  | j => (read j).map some

end Json

/-- The fields of an object, looked up by name. Fields that no reader asks for do not matter. -/
abbrev Fields := List (String × Json)

namespace Fields

/-- A field that must be there. -/
def required {α : Type} (fs : Fields) (name : String) (read : Json → Option α) : Option α :=
  (fs.lookup name).bind read

/-- A field that may be left out. -/
def optional {α : Type} (fs : Fields) (name : String) (default : α) (read : Json → Option α) :
    Option α :=
  match fs.lookup name with
  | none => some default
  | some j => read j

/-- A field that may be left out or `null`. -/
def nullable {α : Type} (fs : Fields) (name : String) (read : Json → Option α) :
    Option (Option α) :=
  fs.optional name none (Json.opt? read)

end Fields

end Correspondence
