import Correspondence.Element
import Correspondence.Error
import Correspondence.Lookup

/-!
# Identity of elements

The elements that have been made, and which compiled declaration stands for which of them. The
elements of one class or file are made in a batch, which is added as a whole or not at all.
-/

namespace Correspondence

/-- The elements made so far, and what has been found out on the way. -/
structure Cache where
  elements : Array Element := #[]
  /-- The element that a compiled declaration stands for. -/
  byDecl : Lookup DeclId ElementId := .empty
  /-- The nearest declaration with metadata, where it has been looked for. -/
  carriers : Lookup DeclId (Option DeclId) := .empty
  /-- The companion of a class, where it has been looked for. -/
  companions : Lookup ElementId (Option ElementId) := .empty

/-- Elements that are not added yet, and what they claim. -/
structure Batch where
  /-- The number of the first element. -/
  base : Nat
  elements : Array Element := #[]
  claims : Lookup DeclId ElementId := .empty

namespace Batch

/-- The number that the next element gets. -/
def next (b : Batch) : ElementId :=
  ⟨b.base + b.elements.size⟩

/-- Adds an element. -/
def push (b : Batch) (e : Element) : Batch :=
  { b with elements := b.elements.push e }

/-- The element of the batch with a number. -/
def get? (b : Batch) (id : ElementId) : Option Element :=
  if id.index < b.base then none else b.elements[id.index - b.base]?

/-- Changes an element of the batch. -/
def modify (b : Batch) (id : ElementId) (change : Element → Element) : Batch :=
  if id.index < b.base then b
  else { b with elements := b.elements.modify (id.index - b.base) change }

/-- What errors call the element with a number. -/
def describe (b : Batch) (id : ElementId) : String :=
  ((b.get? id).map Element.describe).getD ""

/-- Claims a compiled declaration for an element. One element may claim a declaration repeatedly, but
two elements may not claim the same one. -/
def claim (b : Batch) (host : Host) (decl : DeclId) (id : ElementId) : Except ResolveError Batch :=
  match b.claims.find? decl with
  | some earlier =>
    if earlier = id then .ok b
    else .error (.doubleClaim (host.describe decl) (b.describe earlier) (b.describe id))
  | none => .ok { b with claims := b.claims.insert decl id }

end Batch

namespace Cache

/-- The number of elements. -/
def size (c : Cache) : Nat :=
  c.elements.size

/-- The element that a compiled declaration stands for. -/
def get? (c : Cache) (decl : DeclId) : Option ElementId :=
  c.byDecl.find? decl

/-- The element with a number. -/
def element? (c : Cache) (id : ElementId) : Option Element :=
  c.elements[id.index]?

/-- The number that the next element gets. -/
def next (c : Cache) : ElementId :=
  ⟨c.size⟩

/-- Adds an element that a compiled declaration stands for. -/
def insert (c : Cache) (decl : DeclId) (e : Element) : Cache :=
  { c with elements := c.elements.push e, byDecl := c.byDecl.insert decl c.next }

/-- Lets one more compiled declaration stand for an element. -/
def identify (c : Cache) (decl : DeclId) (id : ElementId) : Cache :=
  { c with byDecl := c.byDecl.insert decl id }

/-- The empty batch, whose elements get the numbers that follow. -/
def begin (c : Cache) : Batch :=
  { base := c.size }

/-- Adds the elements and claims of a batch. -/
def commit (c : Cache) (b : Batch) : Cache :=
  { c with elements := c.elements ++ b.elements, byDecl := c.byDecl.extend b.claims }

/-- Keeps the nearest declaration with metadata. -/
def rememberCarrier (c : Cache) (decl : DeclId) (carrier : Option DeclId) : Cache :=
  { c with carriers := c.carriers.insert decl carrier }

/-- Keeps the companion of a class. -/
def rememberCompanion (c : Cache) (owner : ElementId) (companion : Option ElementId) : Cache :=
  { c with companions := c.companions.insert owner companion }

end Cache

end Correspondence
