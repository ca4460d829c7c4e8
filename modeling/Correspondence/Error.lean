import Correspondence.Accessor
import Correspondence.Metadata.Error
import Correspondence.Text.Quoted

/-!
# Errors of resolution

Every way in which a compiled unit and its metadata may contradict each other.
-/

namespace Correspondence

/-- A construct that is known but not resolved. -/
inductive UnsupportedFeature
  | modules
  | multiFileFacades
deriving DecidableEq, Repr

/-- The construct in words. -/
def UnsupportedFeature.inWords : UnsupportedFeature → String
  | .modules => "module declarations"
  | .multiFileFacades => "multi-file class facades"

/-- How the constructors of a class break the rule that exactly one of them is primary. -/
inductive ConstructorFault
  | noPrimary
  | severalPrimaries
deriving DecidableEq, Repr

/-- The fault in words. -/
def ConstructorFault.inWords : ConstructorFault → String
  | .noPrimary => "no primary constructor"
  | .severalPrimaries => "more than one primary constructor"

/-- Why declarations and descriptors do not correspond. -/
inductive ResolveError
  /-- No member has the signature of the descriptor. -/
  | missingCorrespondence (owner descriptor signature : String)
  /-- Several members have the signature of the descriptor. -/
  | ambiguousCorrespondence (owner descriptor signature : String) (candidates : List String)
  | parameterMismatch (host descriptor : String) (position : Nat) (hostName descriptorName : String)
  | parameterCountMismatch (host descriptor : String) (hostCount descriptorCount : Nat)
  /-- Two descriptors record the same signature. -/
  | duplicateDescriptor (owner signature first second : String)
  /-- The signature of an enum constructor lacks the parameters for the name and the ordinal. -/
  | enumConstructorStart (owner signature : String)
  | qualifiedNameMismatch (host descriptor : String)
  | initializerInSourceType (host : String)
  | primaryConstructorOrder (owner : String) (fault : ConstructorFault)
  /-- Two elements stand for the same declaration. -/
  | doubleClaim (host first second : String)
  | emptyProperty (owner property : String)
  | namedFieldSignature (owner property name : String)
  | accessorShapeMismatch (host property : String) (role : AccessorRole)
  | companionNotFound (owner companion : String) (found : Nat)
  | companionWithoutMetadata (owner host : String)
  | missingDescriptor (host : String)
  | typeParameterMismatch (host : String) (position : Nat) (hostName descriptorName : String)
  | noTypeParameters (host : String)
  | sealedFunction (owner descriptor : String)
  | unsupportedKind (host : String) (kind : DeclKind)
  | unsupported (host : String) (feature : UnsupportedFeature)
  | metadata (error : MetadataError)
deriving DecidableEq, Repr

/-- The error in words. -/
def ResolveError.message : ResolveError → String
  | .missingCorrespondence owner descriptor signature =>
    "no member of " ++ owner ++ " matches `" ++ descriptor ++ "` with signature " ++ signature
  | .ambiguousCorrespondence owner descriptor signature candidates =>
    "members " ++ Text.quotedList candidates ++ " of " ++ owner ++ " all match `" ++ descriptor ++
      "` with signature " ++ signature
  | .parameterMismatch host descriptor position hostName descriptorName =>
    "parameter #" ++ toString position ++ " of " ++ host ++ " is `" ++ hostName ++ "` but `" ++
      descriptor ++ "` declares `" ++ descriptorName ++ "`"
  | .parameterCountMismatch host descriptor hostCount descriptorCount =>
    host ++ " has " ++ toString hostCount ++ " value parameters but `" ++ descriptor ++
      "` declares " ++ toString descriptorCount
  | .duplicateDescriptor owner signature first second =>
    owner ++ " declares " ++ signature ++ " for both `" ++ first ++ "` and `" ++ second ++ "`"
  | .enumConstructorStart owner signature =>
    "enum constructor signature " ++ signature ++ " of " ++ owner ++
      " lacks the name/ordinal prefix"
  | .qualifiedNameMismatch host descriptor =>
    "descriptor names class `" ++ descriptor ++ "` but the host type is `" ++ host ++ "`"
  | .initializerInSourceType host =>
    "source type " ++ host ++ " declares an initializer block"
  | .primaryConstructorOrder owner fault =>
    "constructors of " ++ owner ++ ": " ++ fault.inWords
  | .doubleClaim host first second =>
    host ++ " is claimed by both " ++ first ++ " and " ++ second
  | .emptyProperty owner property =>
    "property `" ++ property ++ "` of " ++ owner ++ " has no field, getter or setter"
  | .namedFieldSignature owner property name =>
    "field signature of property `" ++ property ++ "` of " ++ owner ++ " carries the name `" ++
      name ++ "`"
  | .accessorShapeMismatch host property role =>
    host ++ " cannot be the " ++ role.inWords ++ " of property `" ++ property ++ "`"
  | .companionNotFound owner companion found =>
    owner ++ " has " ++ toString found ++ " nested classes named `" ++ companion ++
      "`, expected exactly one"
  | .companionWithoutMetadata owner host =>
    "companion " ++ host ++ " of " ++ owner ++ " carries no class metadata"
  | .missingDescriptor host =>
    host ++ " is nested in source declarations but carries no metadata"
  | .typeParameterMismatch host position hostName descriptorName =>
    "type parameter #" ++ toString position ++ " of " ++ host ++ " is `" ++ hostName ++
      "` but the descriptor declares `" ++ descriptorName ++ "`"
  | .noTypeParameters host => host ++ " cannot declare type parameters"
  | .sealedFunction owner descriptor =>
    "function `" ++ descriptor ++ "` of " ++ owner ++ " is sealed"
  | .unsupportedKind host kind =>
    host ++ " of kind " ++ Named.name kind ++ " has no source counterpart"
  | .unsupported host feature => host ++ ": " ++ feature.inWords ++ " are not supported"
  | .metadata error => error.message

end Correspondence
