import Correspondence.Text.Cut

/-!
# Readers of TOML

A reader takes what it reads off the start of a text. A reader that fails takes nothing off, so that
another one may be tried at the same place.
-/

namespace Correspondence.Toml

/-- Takes something off the start of a text, or fails. -/
abbrev Reader := StateT (List Char) Option

namespace Reader

/-- A character of a class. -/
def charOf (accepts : Char → Bool) : Reader Char
  | [] => none
  | c :: text => if accepts c then some (c, text) else none

/-- The character itself. -/
def char (c : Char) : Reader Unit := do
  let _ ← charOf (· = c)

/-- The text itself. -/
def word (expected : String) : Reader Unit := fun text =>
  (Text.stripStart? expected.toList text).map ((), ·)

/-- As many characters of a class as there are. -/
def span (accepts : Char → Bool) : Reader (List Char) := fun text =>
  some (text.takeWhile accepts, text.dropWhile accepts)

/-- As many items as there are, but at most `n`. -/
def upTo {α : Type} : Nat → Reader α → Reader (List α)
  | 0, _ => pure []
  | n + 1, item => (do return (← item) :: (← upTo n item)) <|> pure []

/-- As many items as there are. None of them is empty, so the length of the text bounds their
number. -/
def many {α : Type} (item : Reader α) : Reader (List α) := fun text =>
  upTo text.length item text

/-- At least one item, with a separator between any two. -/
def separated {α : Type} (separator : Reader Unit) (item : Reader α) : Reader (List α) := do
  let first ← item
  let others ← many (do separator; item)
  return first :: others

/-- What a reader takes off, as it is written. -/
def written (item : Reader Unit) : Reader String := fun text =>
  (item text).map fun ((), rest) => (String.ofList (text.take (text.length - rest.length)), rest)

/-- The end of the text. -/
def atEnd : Reader Unit := do
  guard (← get).isEmpty

/-- Whether a character may stand inside a line: it is printable, or a tabulator. -/
def isInline (c : Char) : Bool :=
  c = '\t' || (' ' ≤ c && c ≠ '\x7f')

/-- Whether a character separates what stands on one line. -/
def isBlank (c : Char) : Bool :=
  c = ' ' || c = '\t'

/-- Blanks, if there are any. -/
def blanks : Reader Unit := do
  let _ ← span isBlank

/-- An item between blanks. -/
def spaced {α : Type} (item : Reader α) : Reader α := do
  blanks
  let a ← item
  blanks
  return a

/-- The end of a line. -/
def newline : Reader Unit :=
  word "\n" <|> word "\r\n"

/-- A comment up to the end of its line. -/
def comment : Reader Unit := do
  char '#'
  let _ ← span isInline

/-- Blanks and a comment, if there are any, up to the end of a line or of the text. -/
def restOfLine : Reader Unit := do
  blanks
  let _ ← optional comment
  newline <|> atEnd

/-- Blanks, ends of lines and comments, if there are any. -/
def blankLines : Reader Unit := do
  blanks
  let _ ← many do
    let _ ← optional comment
    newline
    blanks

end Reader

end Correspondence.Toml
