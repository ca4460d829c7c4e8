import Correspondence.Decl.Kind
import Correspondence.Jvm.Type
import Correspondence.Metadata.Basic

/-!
# Declaration trees

The declarations of one compiled unit in the order of their creation. Each one knows the declaration
that encloses it, and lists those that it encloses.
-/

namespace Correspondence

/-- A declaration by its position in the order of creation. A number that a tree has not given stands
for a declaration of no particular kind, without name and members. -/
structure DeclId where
  index : Nat
deriving DecidableEq, Repr, Inhabited

/-- One declaration. -/
structure Decl where
  kind : DeclKind
  /-- The simple name: `<init>` for a constructor, the whole dotted name for a package. -/
  name : String
  enclosing : Option DeclId := none
  /-- The members, in order. -/
  enclosed : List DeclId := []
  parameters : List DeclId := []
  typeParameters : List DeclId := []
  /-- The type of a field or parameter, the result type of a method. -/
  type : Option JvmType := none
  metadata : Option Metadata := none

namespace Decl

/-- Lists a declaration of the given kind, in the list where its kind belongs. -/
def link (d : Decl) (kind : DeclKind) (child : DeclId) : Decl :=
  match kind with
  | .parameter => { d with parameters := d.parameters ++ [child] }
  | .typeParameter => { d with typeParameters := d.typeParameters ++ [child] }
  | _ => { d with enclosed := d.enclosed ++ [child] }

end Decl

/-- The declarations of one unit. -/
structure DeclTree where
  decls : Array Decl := #[]
  /-- The declarations that nothing encloses, in order. -/
  roots : List DeclId := []

namespace DeclTree

/-- The number of declarations. -/
def size (t : DeclTree) : Nat :=
  t.decls.size

/-- The declaration with a number that the tree has given. -/
def get? (t : DeclTree) (id : DeclId) : Option Decl :=
  t.decls[id.index]?

/-- The declarations in order. -/
def ids (t : DeclTree) : List DeclId :=
  (List.range t.size).map DeclId.mk

/-- The number that the next declaration gets. -/
def next (t : DeclTree) : DeclId :=
  ⟨t.size⟩

/-- Adds a declaration, and lists it with the declaration that encloses it. The new declaration is
there when it is listed, so it lists itself if its own number is given; a number beyond it lists
nothing. -/
def add (t : DeclTree) (enclosing : Option DeclId) (kind : DeclKind) (name : String)
    (type : Option JvmType) : DeclTree :=
  let decls := t.decls.push { kind, name, enclosing, type }
  match enclosing with
  | none => { decls, roots := t.roots ++ [t.next] }
  | some parent => { t with decls := decls.modify parent.index (·.link kind t.next) }

/-- Attaches metadata in place of what was attached before, and answers whether the tree has given
the number. Nothing is attached to a number that it has not given. -/
def attachMetadata (t : DeclTree) (id : DeclId) (metadata : Metadata) : Bool × DeclTree :=
  ((t.get? id).isSome,
    { t with decls := t.decls.modify id.index fun d => { d with metadata := some metadata } })

/-- The tree once metadata is attached. -/
def attach (t : DeclTree) (id : DeclId) (metadata : Metadata) : DeclTree :=
  (t.attachMetadata id metadata).2

/-- Adds a package. -/
def addPackage (t : DeclTree) (name : String) : DeclTree :=
  t.add none .package name none

/-- Adds a type. -/
def addType (t : DeclTree) (enclosing : DeclId) (kind : DeclKind) (name : String) : DeclTree :=
  t.add enclosing kind name none

/-- Adds a method with its result type. -/
def addMethod (t : DeclTree) (owner : DeclId) (name : String) (result : JvmType) : DeclTree :=
  t.add owner .method name result

/-- Adds a constructor. -/
def addConstructor (t : DeclTree) (owner : DeclId) : DeclTree :=
  t.add owner .constructor "<init>" JvmType.void

/-- Adds a field. -/
def addField (t : DeclTree) (owner : DeclId) (name : String) (type : JvmType) : DeclTree :=
  t.add owner .field name type

/-- Adds a parameter of a method or constructor. -/
def addParameter (t : DeclTree) (owner : DeclId) (name : String) (type : JvmType) : DeclTree :=
  t.add owner .parameter name type

/-- Adds a type parameter. -/
def addTypeParameter (t : DeclTree) (owner : DeclId) (name : String) : DeclTree :=
  t.add owner .typeParameter name none

@[simp] theorem size_add (t : DeclTree) (enclosing : Option DeclId) (kind : DeclKind)
    (name : String) (type : Option JvmType) :
    (t.add enclosing kind name type).size = t.size + 1 := by
  unfold add size
  cases enclosing <;> simp

@[simp] theorem size_attach (t : DeclTree) (id : DeclId) (metadata : Metadata) :
    (t.attach id metadata).size = t.size := by
  simp [attach, attachMetadata, size]

end DeclTree

end Correspondence
