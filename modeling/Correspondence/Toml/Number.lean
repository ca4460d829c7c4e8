import Correspondence.Text.Digits
import Correspondence.Toml.Magnitude
import Correspondence.Toml.Reader

/-!
# Numbers, dates and times in TOML

A whole number has 64 bits and a sign. Another number that is not negative must not be rounded to
infinity in 64 bits. Dates and times are only checked for their form.
-/

namespace Correspondence.Toml.Reader

/-- Digits of a base, between any two of which there may be an underscore. -/
def digits (base : Nat) : Reader (List Char) :=
  let digit := charOf fun c => (Text.digit? base c).isSome
  do
    let first ← digit
    let others ← many (do let _ ← optional (char '_'); digit)
    return first :: others

/-- The number that digits of a base stand for. -/
def natural (base : Nat) : Reader Nat := do
  Text.number? base (← digits base)

/-- A sign, which is written `-` if it is negative. -/
def isNegative : Reader Bool :=
  (do char '-'; return true) <|> (do char '+'; return false) <|> return false

/-- Decimal digits, the first of which is not zero unless it is the only one. -/
def decimalDigits : Reader (List Char) :=
  (do char '0'; return ['0']) <|> digits 10

/-- A number in decimal digits. -/
def decimal : Reader Int := do
  let negative ← isNegative
  let number : Nat ← Text.number? 10 (← decimalDigits)
  return if negative then -number else number

/-- A number in a base, which a mark before it tells. -/
def marked (mark : String) (base : Nat) : Reader Int := do
  word mark
  return ← natural base

/-- A whole number. In another base than ten it has no sign. -/
def integer : Reader Int := do
  let number ← marked "0x" 16 <|> marked "0o" 8 <|> marked "0b" 2 <|> decimal
  guard (Int64.minValue.toInt ≤ number ∧ number ≤ Int64.maxValue.toInt)
  return number

/-- The exponent of a number. -/
def exponent : Reader Int := do
  char 'e' <|> char 'E'
  let negative ← isNegative
  let number ← natural 10
  return if negative then -number else number

/-- The digits of a fraction. -/
def fraction : Reader (List Char) := do
  char '.'
  digits 10

/-- A number with a fraction or an exponent, or one that is infinite or undefined. A number that is
not negative is small enough to be finite in 64 bits. -/
def float : Reader Unit :=
  (do
    let negative ← isNegative
    let whole ← decimalDigits
    let (fraction, exponent) ←
      (do return ([], ← exponent)) <|> do return (← fraction, (← optional exponent).getD 0)
    let number ← Text.number? 10 (whole ++ fraction)
    guard (negative ∨ ¬ reaches infinityFrom number (exponent - fraction.length))) <|>
  do
    let _ ← isNegative
    word "inf" <|> word "nan"

/-- A number in `count` digits. -/
def padded (count : Nat) : Reader Nat := fun text => do
  let digits := text.take count
  guard (digits.length = count)
  let number ← Text.number? 10 digits
  return (number, text.drop count)

/-- A number in two digits that is at most `last`. -/
def twoDigits (last : Nat) : Reader Nat := do
  let number ← padded 2
  guard (number ≤ last)
  return number

/-- The number of days of a month. -/
def daysOfMonth (year month : Nat) : Nat :=
  if month = 2 then
    if year % 4 = 0 ∧ (year % 100 ≠ 0 ∨ year % 400 = 0) then 29 else 28
  else if month ∈ [4, 6, 9, 11] then 30
  else 31

/-- A day of the calendar. -/
def date : Reader Unit := do
  let year ← padded 4
  char '-'
  let month ← twoDigits 12
  guard (1 ≤ month)
  char '-'
  let day ← twoDigits (daysOfMonth year month)
  guard (1 ≤ day)

/-- A time of day, in which a second may be a leap second. -/
def time : Reader Unit := do
  let _ ← twoDigits 23
  char ':'
  let _ ← twoDigits 59
  char ':'
  let _ ← twoDigits 60
  let _ ← optional do
    char '.'
    let _ ← charOf Char.isDigit
    let _ ← span Char.isDigit

/-- The distance from universal time. -/
def offset : Reader Unit :=
  char 'Z' <|> char 'z' <|> do
    char '+' <|> char '-'
    let _ ← twoDigits 23
    char ':'
    let _ ← twoDigits 59

/-- A date, a time of day, or both with or without an offset. -/
def dateTime : Reader Unit :=
  (do
    date
    let _ ← optional do
      char 'T' <|> char 't' <|> char ' '
      time
      optional offset) <|>
  time

end Correspondence.Toml.Reader
