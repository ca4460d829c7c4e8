import Correspondence.Toml.Number
import Correspondence.Toml.Quotation
import Correspondence.Toml.Table

/-!
# TOML documents

A document is a list of lines, each of which gives a value to a key or starts a table.
-/

namespace Correspondence.Toml

/-- How deeply values may be nested, and how many keys a path may have. -/
def maxDepth : Nat := 79

/-- A key with the keys that lead to it. -/
structure KeyPath where
  path : List String
  key : String

/-- All keys of the path. -/
def KeyPath.toList (k : KeyPath) : List String := k.path ++ [k.key]

/-- What a line of a document says. -/
inductive Line
  | nothing
  | pair (key : KeyPath) (value : Value)
  | header (key : KeyPath)
  | nextHeader (key : KeyPath)

namespace Reader

/-- A character of a key without quotes. -/
def isKeyChar (c : Char) : Bool :=
  c.isAlphanum || c = '_' || c = '-'

/-- A key without dots. -/
def simpleKey : Reader String :=
  shortText <|> do
    let key ← span isKeyChar
    guard (key ≠ [])
    return String.ofList key

/-- Keys with dots between them. -/
def keyPath : Reader KeyPath := do
  let keys ← separated (char '.') (spaced simpleKey)
  guard (keys.length ≤ maxDepth)
  match keys.getLast? with
  | some key => return ⟨keys.dropLast, key⟩
  | none => failure

/-- A value that contains no others. -/
def scalar : Reader Value :=
  Value.string <$> text <|>
    (do word "true"; return .boolean true) <|>
    (do word "false"; return .boolean false) <|>
    Value.dateTime <$> written dateTime <|>
    Value.float <$> written float <|>
    Value.integer <$> integer

/-- An array, whose last item may be followed by a comma. -/
def array (item : Reader Value) : Reader Value := do
  let item : Reader Value := do blankLines; let value ← item; blankLines; return value
  char '['
  let items ← (do
    let items ← separated (char ',') item
    let _ ← optional (char ',')
    return items) <|> return []
  blankLines
  char ']'
  return .array items

/-- A key and its value. -/
def pair (value : Reader Value) : Reader (KeyPath × Value) := do
  let key ← keyPath
  char '='
  blanks
  return (key, ← value)

/-- A table in braces. -/
def inlineTable (value : Reader Value) : Reader Value := do
  char '\x7b'
  let pairs ← separated (char ',') (do let field ← pair value; blanks; return field) <|> return []
  blanks
  char '\x7d'
  let fields ← pairs.foldlM (fun t (key, value) => t.define key.path key.key value)
    (Table.empty .headed)
  return .inline fields

/-- A value that is nested at most so deep. -/
def value : Nat → Reader Value
  | 0 => scalar
  | depth + 1 => array (value depth) <|> inlineTable (value depth) <|> scalar

/-- A line up to its end, or to the end of the text. -/
def line : Reader Line := do
  blanks
  let line : Line ←
    (do word "[["; let key ← keyPath; word "]]"; return .nextHeader key) <|>
    (do char '['; let key ← keyPath; char ']'; return .header key) <|>
    (do let (key, value) ← pair (value maxDepth); return .pair key value) <|>
    return .nothing
  restOfLine
  return line

/-- All lines of a text. The last one ends with the text. -/
def lines : Reader (List Line) := do
  let _ ← optional (char '\ufeff')
  let lines ← many (do guard !(← get).isEmpty; line)
  atEnd
  return lines

end Reader

/-- What has been read of a document: the whole of it, and the path of the table whose fields are
being read. -/
structure Draft where
  root : Table := .empty .headed
  current : List String := []

/-- Reads one more line. -/
def Draft.add (d : Draft) : Line → Option Draft
  | .nothing => some d
  | .pair key value =>
    (Table.within .implied (Table.define key.path key.key value) d.current d.root).map
      fun root => { d with root }
  | .header key => (d.root.start key.path key.key).map fun root => ⟨root, key.toList⟩
  | .nextHeader key => (d.root.startNext key.path key.key).map fun root => ⟨root, key.toList⟩

/-- The table that a document describes. -/
def Table.ofText? (text : String) : Option Table := do
  let (lines, _) ← Reader.lines.run text.toList
  let draft ← lines.foldlM Draft.add {}
  return draft.root

end Correspondence.Toml
