/-!
# Tables of TOML

A table is defined once, and a key is given a value once. A table that is only named on the way to
another one may be defined later by a header of its own, and one that comes from dotted keys may be
given more of them.
-/

namespace Correspondence.Toml

/-- How a table has come about. -/
inductive TableForm
  /-- It is named on the way to a table that has a header. -/
  | implied
  /-- It is named on the way to a dotted key. -/
  | dotted
  /-- It has a header, or is the whole document. -/
  | headed
deriving DecidableEq, Repr

mutual
/-- A value. Numbers that are not whole, and dates and times, are kept as they are written. -/
inductive Value
  | string (text : String)
  | integer (value : Int)
  | boolean (value : Bool)
  | float (written : String)
  | dateTime (written : String)
  | array (items : List Value)
  /-- A table in braces, to which nothing can be added. -/
  | inline (fields : Table)
  | table (fields : Table)
  /-- An array of tables, each of which has a header. -/
  | tables (earlier : List Table) (last : Table)
/-- A table. -/
inductive Table
  | mk (form : TableForm) (fields : List (String × Value))
end

namespace Table

/-- How the table has come about. -/
def form : Table → TableForm
  | .mk form _ => form

/-- The fields with their keys. -/
def fields : Table → List (String × Value)
  | .mk _ fields => fields

/-- The table without fields. -/
def empty (form : TableForm) : Table := .mk form []

/-- The value of a key. -/
def find? (t : Table) (key : String) : Option Value :=
  t.fields.lookup key

/-- Gives a key a value, whatever it had before. -/
def set (t : Table) (key : String) (value : Value) : Table :=
  .mk t.form ((key, value) :: t.fields.filter (·.1 ≠ key))

/-- Gives a value to a key that has none. -/
def insert? (t : Table) (key : String) (value : Value) : Option Table :=
  match t.find? key with
  | some _ => none
  | none => some (t.set key value)

/-- Changes the table at the end of a path. Tables that are missing come about in a form, and dotted
keys lead only through tables that have no header. -/
def within (missing : TableForm) (change : Table → Option Table) :
    List String → Table → Option Table
  | [] => change
  | key :: path => fun t =>
    let inner := within missing change path
    match t.find? key with
    | none => (inner (empty missing)).map fun u => t.set key (.table u)
    | some (.table u) =>
      if missing = .dotted ∧ u.form = .headed then none
      else (inner u).map fun u => t.set key (.table u)
    | some (.tables earlier u) => (inner u).map fun u => t.set key (.tables earlier u)
    | some _ => none

/-- Gives a value to a dotted key. A table that has come about in another way is given no field by
a key with dots, nor one from dotted keys a field by a key without them. -/
def define (path : List String) (key : String) (value : Value) (t : Table) : Option Table :=
  within .dotted (fun u =>
    if u.form = .dotted ↔ path = [] then none else u.insert? key value) path t

/-- Starts the table with a header. -/
def start (path : List String) (key : String) (t : Table) : Option Table :=
  within .implied (fun u =>
    match u.find? key with
    | none => some (u.set key (.table (empty .headed)))
    | some (.table (.mk .implied fields)) => some (u.set key (.table (.mk .headed fields)))
    | some _ => none) path t

/-- Starts one more table of an array of tables. -/
def startNext (path : List String) (key : String) (t : Table) : Option Table :=
  within .implied (fun u =>
    match u.find? key with
    | none => some (u.set key (.tables [] (empty .headed)))
    | some (.tables earlier last) => some (u.set key (.tables (earlier ++ [last]) (empty .headed)))
    | some _ => none) path t

end Table

end Correspondence.Toml
