import Correspondence.Identity

/-!
# Outlines

An element and its members in lines of text, indented by their depth.
-/

namespace Correspondence.Outline

/-- The parts that a property has, by name. -/
def propertyParts (p : PropertyElement) : List String :=
  [("field", p.field), ("getter", p.getter), ("setter", p.setter), ("holder", p.holder)].filterMap
    fun (part, decl?) => decl?.map fun _ => part

/-- The line of an element. -/
def line : Element → String
  | .package e => "package " ++ e.name
  | .type e => Named.name e.kind ++ " " ++ e.qualifiedName
  | .fileFacade e => "facade " ++ e.qualifiedName
  | .function e =>
    if e.overloads = [] then "fun " ++ e.signature
    else "fun " ++ e.signature ++ " +" ++ toString e.overloads.length ++ " overloads"
  | .constructor e => (if e.isPrimary then "primary " else "secondary ") ++ e.signature
  | .property e =>
    (if e.isMutable then "var " else "val ") ++ e.name ++ " [" ++
      ", ".intercalate (propertyParts e) ++ "]"
  | .parameter e => "param " ++ e.name ++ if e.hasDefault then " = default" else ""
  | .typeParameter e => "type param " ++ e.name
  | .enumEntry e => "entry " ++ e.name ++ " #" ++ toString e.ordinal
  | .implicit e => "implicit " ++ Named.name e.kind ++ " " ++ e.name

/-- The elements that are shown below an element. -/
def children : Element → List ElementId
  | .type e =>
    e.typeParameters ++ e.constructors ++ e.functions ++ e.properties ++ e.enumEntries
  | .fileFacade e => e.functions ++ e.properties
  | .function e => e.typeParameters ++ e.parameters
  | .constructor e => e.parameters
  | _ => []

/-- The lines of an element and its members, at most `n` levels deep. -/
def linesWithin (cache : Cache) : Nat → Nat → ElementId → List String
  | 0, _, _ => []
  | n + 1, depth, id =>
    match cache.element? id with
    | none => []
    | some e =>
      (String.join (List.replicate depth "  ") ++ line e) ::
        (children e).flatMap (linesWithin cache n (depth + 1))

/-- The outline of an element, each line of which ends; for an unknown number one empty line. A
chain of members has at most as many elements as there are. -/
def render (cache : Cache) (id : ElementId) : String :=
  "\n".intercalate (linesWithin cache cache.size 0 id) ++ "\n"

end Correspondence.Outline
