/-!
# Configuration of the resolver
-/

namespace Correspondence

/-- What the resolver checks, and what it assumes where metadata is silent. -/
structure Config where
  /-- The module of a class or file that names none. -/
  defaultModuleName : String := "main"
  /-- Whether the methods of a property must have the form of their role. -/
  verifyAccessorShapes : Bool := true
  /-- Whether a class must have the name of its compiled type. -/
  checkQualifiedNames : Bool := true
deriving DecidableEq, Repr, Inhabited

end Correspondence
