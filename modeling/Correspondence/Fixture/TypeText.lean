/-!
# Types in text

A type is a name, the arguments in angle brackets if there are any, and a question mark if its values
may be absent. An argument is a type or a star. Spaces may stand before a type and around an argument,
but nowhere else.
-/

namespace Correspondence.Fixture

mutual
/-- A type as it is written. -/
inductive TypeText
  | mk (name : String) (arguments : List ArgumentText) (nullable : Bool)
/-- An argument as it is written. -/
inductive ArgumentText
  | star
  | type (text : TypeText)
end

/-- What keeps a text from being a type. -/
inductive TypeTextFault
  | expectedName
  | unterminatedArguments
  | trailing
deriving DecidableEq, Repr

/-- The fault in words. -/
def TypeTextFault.message (text : String) : TypeTextFault → String
  | .expectedName => "expected a type name in `" ++ text ++ "`"
  | .unterminatedArguments => "unterminated type arguments in `" ++ text ++ "`"
  | .trailing => "trailing characters in type `" ++ text ++ "`"

namespace TypeText

/-- Whether a character may be part of a name. -/
def isNameChar (c : Char) : Bool :=
  c ∉ ['<', '>', ',', '?', ' ']

/-- The text without the spaces at its start. -/
def dropSpaces (text : List Char) : List Char :=
  text.dropWhile (· = ' ')

/-- Completes a type by the question mark that may follow it. -/
def finish (name : List Char) (arguments : List ArgumentText) :
    List Char → TypeText × List Char
  | '?' :: rest => (.mk (String.ofList name) arguments true, rest)
  | rest => (.mk (String.ofList name) arguments false, rest)

mutual
/-- Reads a type at the start of a text, in at most `n` steps. -/
def readType : Nat → List Char → Except TypeTextFault (TypeText × List Char)
  | 0, _ => .error .expectedName
  | n + 1, text =>
    let text := dropSpaces text
    let name := text.takeWhile isNameChar
    if name = [] then .error .expectedName
    else match text.dropWhile isNameChar with
      | '<' :: rest =>
        match readArguments n rest with
        | .ok (arguments, rest) => .ok (finish name arguments rest)
        | .error fault => .error fault
      | rest => .ok (finish name [] rest)
/-- Reads arguments up to the closing bracket, in at most `n` steps. -/
def readArguments : Nat → List Char → Except TypeTextFault (List ArgumentText × List Char)
  | 0, _ => .error .unterminatedArguments
  | n + 1, text =>
    match readArgument n (dropSpaces text) with
    | .error fault => .error fault
    | .ok (argument, rest) =>
      match dropSpaces rest with
      | '>' :: rest => .ok ([argument], rest)
      | ',' :: rest =>
        match readArguments n rest with
        | .ok (arguments, rest) => .ok (argument :: arguments, rest)
        | .error fault => .error fault
      | _ => .error .unterminatedArguments
/-- Reads an argument at the start of a text, in at most `n` steps. -/
def readArgument : Nat → List Char → Except TypeTextFault (ArgumentText × List Char)
  | _, '*' :: rest => .ok (.star, rest)
  | 0, _ => .error .expectedName
  | n + 1, text =>
    match readType n text with
    | .ok (type, rest) => .ok (.type type, rest)
    | .error fault => .error fault
end

/-- Reads a text that holds nothing but one type. Any three steps in a row use up a character, so the
length of the text bounds their number. -/
def ofText (text : String) : Except TypeTextFault TypeText :=
  match readType (3 * text.length + 1) text.toList with
  | .ok (type, []) => .ok type
  | .ok (_, _ :: _) => .error .trailing
  | .error fault => .error fault

end TypeText

end Correspondence.Fixture
