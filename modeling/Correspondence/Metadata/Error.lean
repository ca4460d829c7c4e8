/-!
# Faults of metadata

Metadata names things by number. A number that stands for nothing is the one kind of fault that
metadata has by itself.
-/

namespace Correspondence

/-- The number of a string in the string table that comes with the metadata. -/
structure StringId where
  index : Nat
deriving DecidableEq, Repr, Inhabited

/-- What is wrong with metadata. -/
inductive MetadataError
  | stringOutOfRange (index : StringId) (size : Nat)
  | stringTableFull (size : Nat)
  | unknownTypeParameter (id : Nat)
deriving DecidableEq, Repr

/-- The error in words. -/
def MetadataError.message : MetadataError → String
  | .stringOutOfRange index size =>
    "string index StrId(" ++ toString index.index ++ ") out of range (table has " ++ toString size ++
      " entries)"
  | .stringTableFull size => "string table is full (" ++ toString size ++ " entries)"
  | .unknownTypeParameter id =>
    "type parameter #" ++ toString id ++ " is not declared by any enclosing scope"

end Correspondence
