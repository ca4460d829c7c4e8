import Correspondence.Text.Digits
import Correspondence.Toml.Reader

/-!
# Quotations in TOML

A text stands in double quotes, between which a backslash escapes, or in single quotes, between which
every character stands for itself. With three quotes on either side it may go over several lines, and
one or two quotes inside stand for themselves.
-/

namespace Correspondence.Toml.Reader

/-- What a backslash and one more character stand for. -/
def escapes : List (Char × Char) :=
  [('b', '\x08'), ('t', '\t'), ('n', '\n'), ('f', '\x0c'), ('r', '\r'), ('\x22', '\x22'),
    ('\\', '\\')]

/-- A character by its number in `count` hexadecimal digits. -/
def codePoint (count : Nat) : Reader Char := fun text => do
  let digits := text.take count
  guard (digits.length = count)
  let number ← Text.number? 16 digits
  guard number.isValidChar
  return (Char.ofNat number, text.drop count)

/-- An escaped character. -/
def escape : Reader Char := do
  char '\\'
  match ← charOf fun _ => true with
  | 'u' => codePoint 4
  | 'U' => codePoint 8
  | c => escapes.lookup c

/-- A character that needs no escape between double quotes. -/
def plain : Reader Char :=
  charOf fun c => isInline c && c ≠ '\x22' && c ≠ '\\'

/-- A character that may stand between single quotes. -/
def verbatim : Reader Char :=
  charOf fun c => isInline c && c ≠ '\x27'

/-- A text on one line. -/
def quotation (quote : Char) (content : Reader Char) : Reader String := do
  char quote
  let text ← many content
  char quote
  return String.ofList text

/-- The number of quotes that follow. -/
def quotes (quote : Char) : Reader Nat := do
  return (← span (· = quote)).length

/-- A text on several lines. An end of a line right after the opening quotes does not belong to it,
and up to two quotes right before the closing ones do. -/
def longQuotation (quote : Char) (content : Reader (List Char)) : Reader String := do
  word (String.ofList [quote, quote, quote])
  let _ ← optional newline
  let parts ← many do
    content <|> do
      let count ← quotes quote
      guard (0 < count ∧ count < 3)
      return List.replicate count quote
  let count ← quotes quote
  guard (3 ≤ count ∧ count ≤ 5)
  return String.ofList (parts.flatten ++ List.replicate (count - 3) quote)

/-- A backslash at the end of a line, with all blanks and ends of lines that follow. -/
def continuation : Reader Unit := do
  char '\\'
  blanks
  newline
  let _ ← many (newline <|> do let _ ← charOf isBlank)

/-- An end of a line within a text, however it is written. -/
def lineBreak : Reader (List Char) := do
  newline
  return ['\n']

/-- A text on one line, in quotes of either kind. -/
def shortText : Reader String :=
  quotation '\x22' (plain <|> escape) <|> quotation '\x27' verbatim

/-- A text in quotes of any kind. -/
def text : Reader String :=
  longQuotation '\x22'
      ((do return [← plain <|> escape]) <|> lineBreak <|> do continuation; return []) <|>
    longQuotation '\x27' ((do return [← verbatim]) <|> lineBreak) <|>
    shortText

end Correspondence.Toml.Reader
