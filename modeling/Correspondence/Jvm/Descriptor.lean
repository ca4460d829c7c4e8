import Correspondence.Jvm.Type

/-!
# Reading descriptors

A descriptor is one character for a primitive type, `[` before the descriptor of an element, or a
class name between `L` and `;`. A method descriptor holds those of the parameters in parentheses
and then that of the result, where `V` stands for no value.
-/

namespace Correspondence

/-- What keeps a text from being a descriptor. -/
inductive DescriptorFault
  | unexpectedEnd
  | expected (c : Char)
  | unterminatedName
  /-- No type starts with the character, which is shown by the first byte of its UTF-8 form. -/
  | unexpectedTag (tag : Char)
  | trailing
deriving DecidableEq, Repr

/-- The first byte of the UTF-8 form of a character, as the character with that code. -/
def leadByte (c : Char) : Char :=
  if c.toNat < 0x80 then c
  else if c.toNat < 0x800 then Char.ofNat (0xC0 + c.toNat / 0x40)
  else if c.toNat < 0x10000 then Char.ofNat (0xE0 + c.toNat / 0x1000)
  else Char.ofNat (0xF0 + c.toNat / 0x40000)

/-- The fault in words. -/
def DescriptorFault.reason : DescriptorFault → String
  | .unexpectedEnd => "unexpected end"
  | .expected c => "expected '" ++ String.singleton c ++ "'"
  | .unterminatedName => "unterminated reference type"
  | .unexpectedTag tag => "unexpected tag '" ++ String.singleton (leadByte tag) ++ "'"
  | .trailing => "trailing characters"

/-- A text that is not a descriptor. -/
structure DescriptorError where
  descriptor : String
  fault : DescriptorFault
deriving DecidableEq, Repr

/-- The error in words. -/
def DescriptorError.message (e : DescriptorError) : String :=
  "malformed descriptor `" ++ e.descriptor ++ "`: " ++ e.fault.reason

namespace Descriptor

/-- Reads the type at the start of a text, and answers what follows it too. -/
def readType : List Char → Except DescriptorFault (JvmType × List Char)
  | [] => .error .unexpectedEnd
  | 'Z' :: text => .ok (.boolean, text)
  | 'B' :: text => .ok (.byte, text)
  | 'C' :: text => .ok (.char, text)
  | 'S' :: text => .ok (.short, text)
  | 'I' :: text => .ok (.int, text)
  | 'J' :: text => .ok (.long, text)
  | 'F' :: text => .ok (.float, text)
  | 'D' :: text => .ok (.double, text)
  | '[' :: text =>
    match readType text with
    | .ok (element, rest) => .ok (.array element, rest)
    | .error fault => .error fault
  | 'L' :: text =>
    match Text.cutFirst? ';' text with
    | some (name, rest) => .ok (.object (String.ofList name), rest)
    | none => .error .unterminatedName
  | tag :: _ => .error (.unexpectedTag tag)

theorem length_lt_of_readType {text rest : List Char} {type : JvmType}
    (h : readType text = .ok (type, rest)) : rest.length < text.length := by
  fun_induction readType text generalizing type with
  | case1 => cases h
  | case10 text element rest' heq ih =>
    cases h
    have := ih heq
    simp only [List.length_cons]
    omega
  | case11 => cases h
  | case12 text name rest' heq =>
    cases h
    obtain ⟨-, rfl⟩ := Text.cutFirst?_eq_some_iff.mp heq
    simp only [List.length_cons, List.length_append]
    omega
  | case13 => cases h
  | case14 => cases h
  | _ => cases h; simp

/-- Reads types up to the closing parenthesis, and answers what follows it too. -/
def readParameters (text : List Char) : Except DescriptorFault (List JvmType × List Char) :=
  match text with
  | [] => .error .unexpectedEnd
  | ')' :: rest => .ok ([], rest)
  | c :: text =>
    match h : readType (c :: text) with
    | .error fault => .error fault
    | .ok (type, rest) =>
      have : rest.length < (c :: text).length := length_lt_of_readType h
      match readParameters rest with
      | .error fault => .error fault
      | .ok (types, rest) => .ok (type :: types, rest)
termination_by text.length
decreasing_by exact this

/-- Reads a type or `V`. -/
def readResult : List Char → Except DescriptorFault (JvmType × List Char)
  | 'V' :: rest => .ok (.void, rest)
  | text => readType text

/-- Reads a text that holds nothing but one type. -/
def readWhole (text : List Char) : Except DescriptorFault JvmType :=
  match readType text with
  | .error fault => .error fault
  | .ok (type, []) => .ok type
  | .ok (_, _ :: _) => .error .trailing

/-- Reads a text that holds nothing but the types of a method. -/
def readMethod : List Char → Except DescriptorFault (List JvmType × JvmType)
  | [] => .error .unexpectedEnd
  | '(' :: text =>
    match readParameters text with
    | .error fault => .error fault
    | .ok (parameters, rest) =>
      match readResult rest with
      | .error fault => .error fault
      | .ok (result, []) => .ok (parameters, result)
      | .ok (_, _ :: _) => .error .trailing
  | _ :: _ => .error (.expected '(')

end Descriptor

namespace JvmType

/-- The type that a descriptor describes. -/
def ofDescriptor (descriptor : String) : Except DescriptorError JvmType :=
  (Descriptor.readWhole descriptor.toList).mapError fun fault => ⟨descriptor, fault⟩

/-- The parameter types and the result type that a method descriptor describes. -/
def ofMethodDescriptor (descriptor : String) : Except DescriptorError (List JvmType × JvmType) :=
  (Descriptor.readMethod descriptor.toList).mapError fun fault => ⟨descriptor, fault⟩

/-- The type that a descriptor describes, `V` alone describing no value. -/
def ofResultDescriptor (descriptor : String) : Except DescriptorError JvmType :=
  if descriptor = "V" then .ok .void else ofDescriptor descriptor

end JvmType

end Correspondence
