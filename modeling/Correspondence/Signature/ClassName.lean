import Correspondence.Text.Cut

/-!
# Compiled names of source classes

Some classes of the source library have a counterpart among the types of the machine or in its
library. Any other class keeps its name, with a dollar sign between an enclosing class and a nested
one.
-/

namespace Correspondence.ClassName

/-- A class of the source library whose values are primitive where nothing forbids it. -/
structure Primitive where
  source : String
  /-- The descriptor of the primitive type. -/
  descriptor : String
  /-- The class of the boxed values. -/
  boxed : String
deriving DecidableEq, Repr

/-- The primitive classes. -/
def primitives : List Primitive :=
  [⟨"kotlin/Boolean", "Z", "java/lang/Boolean"⟩, ⟨"kotlin/Char", "C", "java/lang/Character"⟩,
    ⟨"kotlin/Byte", "B", "java/lang/Byte"⟩, ⟨"kotlin/Short", "S", "java/lang/Short"⟩,
    ⟨"kotlin/Int", "I", "java/lang/Integer"⟩, ⟨"kotlin/Float", "F", "java/lang/Float"⟩,
    ⟨"kotlin/Long", "J", "java/lang/Long"⟩, ⟨"kotlin/Double", "D", "java/lang/Double"⟩]

/-- The primitive class with a name. -/
def primitive? (name : String) : Option Primitive :=
  primitives.find? (·.source = name)

/-- The arrays of primitive values, with the descriptors of their elements. -/
def primitiveArrays : List (String × String) :=
  [("kotlin/BooleanArray", "Z"), ("kotlin/CharArray", "C"), ("kotlin/ByteArray", "B"),
    ("kotlin/ShortArray", "S"), ("kotlin/IntArray", "I"), ("kotlin/FloatArray", "F"),
    ("kotlin/LongArray", "J"), ("kotlin/DoubleArray", "D")]

/-- The class whose only value says nothing, so that a method need not return it. -/
def unit : String := "kotlin/Unit"

/-- The class of arrays of references. -/
def array : String := "kotlin/Array"

/-- The classes that have a counterpart of their own. -/
def mapped : List (String × String) :=
  [("kotlin/Any", "java/lang/Object"),
    ("kotlin/String", "java/lang/String"),
    ("kotlin/CharSequence", "java/lang/CharSequence"),
    ("kotlin/Number", "java/lang/Number"),
    ("kotlin/Throwable", "java/lang/Throwable"),
    ("kotlin/Comparable", "java/lang/Comparable"),
    ("kotlin/Enum", "java/lang/Enum"),
    ("kotlin/Annotation", "java/lang/annotation/Annotation"),
    ("kotlin/Cloneable", "java/lang/Cloneable"),
    ("kotlin/Nothing", "java/lang/Void"),
    ("kotlin/collections/Iterable", "java/lang/Iterable"),
    ("kotlin/collections/MutableIterable", "java/lang/Iterable"),
    ("kotlin/collections/Iterator", "java/util/Iterator"),
    ("kotlin/collections/MutableIterator", "java/util/Iterator"),
    ("kotlin/collections/Collection", "java/util/Collection"),
    ("kotlin/collections/MutableCollection", "java/util/Collection"),
    ("kotlin/collections/List", "java/util/List"),
    ("kotlin/collections/MutableList", "java/util/List"),
    ("kotlin/collections/ListIterator", "java/util/ListIterator"),
    ("kotlin/collections/MutableListIterator", "java/util/ListIterator"),
    ("kotlin/collections/Set", "java/util/Set"),
    ("kotlin/collections/MutableSet", "java/util/Set"),
    ("kotlin/collections/Map", "java/util/Map"),
    ("kotlin/collections/MutableMap", "java/util/Map"),
    ("kotlin/collections/Map.Entry", "java/util/Map$Entry"),
    ("kotlin/collections/MutableMap.MutableEntry", "java/util/Map$Entry")]

/-- The start of the names of function classes, which the number of parameters ends. -/
def functionStart : String := "kotlin/Function"

/-- The start of the compiled names of function classes. -/
def compiledFunctionStart : String := "kotlin/jvm/functions/Function"

/-- The number of parameters in the name of a function class, in ASCII digits. -/
def arity? (name : String) : Option (List Char) :=
  (Text.stripStart? functionStart.toList name.toList).filter fun arity =>
    arity ≠ [] && arity.all Char.isDigit

/-- The compiled name of a source class. -/
def compiled (name : String) : String :=
  match mapped.lookup name with
  | some counterpart => counterpart
  | none =>
    match arity? name with
    | some arity => compiledFunctionStart ++ String.ofList arity
    | none => name.map fun c => if c = '.' then '$' else c

end Correspondence.ClassName
