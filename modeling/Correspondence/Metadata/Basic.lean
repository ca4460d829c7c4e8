import Correspondence.Metadata.Descriptor
import Correspondence.Metadata.StringTable

/-!
# Metadata

What the source compiler attaches to a compiled type: descriptors, and the strings they refer to.
-/

namespace Correspondence

/-- The metadata of a class. -/
structure ClassMetadata where
  strings : StringTable
  descriptor : ClassDescriptor

/-- The metadata of a file. -/
structure PackageMetadata where
  strings : StringTable
  descriptor : PackageDescriptor

/-- What may be attached to a compiled type. -/
inductive Metadata
  | ofClass (metadata : ClassMetadata)
  /-- The type holds the declarations of one file. -/
  | fileFacade (metadata : PackageMetadata)
  /-- The type stands for several others, each with the declarations of one file. -/
  | multiFileFacade (parts : List String)
  | multiFilePart (metadata : PackageMetadata) (facade : String)
  /-- The compiler made the type, and no declaration of the source stands for it. -/
  | synthetic

namespace Metadata

/-- The strings, where the metadata comes with some. -/
def strings? : Metadata → Option StringTable
  | .ofClass metadata => some metadata.strings
  | .fileFacade metadata | .multiFilePart metadata _ => some metadata.strings
  | .multiFileFacade _ | .synthetic => none

/-- Whether the declarations stand outside of classes. -/
def isPackageLevel : Metadata → Bool
  | .fileFacade _ | .multiFileFacade _ | .multiFilePart _ _ => true
  | .ofClass _ | .synthetic => false

/-- The metadata of a class. -/
def class? : Metadata → Option ClassMetadata
  | .ofClass metadata => some metadata
  | _ => none

end Metadata

end Correspondence
