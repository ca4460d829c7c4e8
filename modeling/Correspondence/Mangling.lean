import Correspondence.Text.Letters

/-!
# Mangled names

Members that only their module sees carry the name of the module in their compiled names.
-/

namespace Correspondence

/-- Appends the name of a module to the names of members. -/
structure NameMangler where
  suffix : String
deriving DecidableEq, Repr

namespace NameMangler

/-- The mangler of a module. In its name every character but letters and numerals becomes an
underscore. -/
def ofModule (name : String) : NameMangler :=
  ⟨name.map fun c => if Text.isLetter c || Text.isNumeral c then c else '_'⟩

/-- The name of a member with that of the module. -/
def mangle (m : NameMangler) (name : String) : String :=
  name ++ "$" ++ m.suffix

end NameMangler

end Correspondence
