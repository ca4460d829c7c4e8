import Correspondence.Error
import Correspondence.Fixture.TypeText
import Correspondence.Jvm.Descriptor

/-!
# Errors of fixtures
-/

namespace Correspondence.Fixture

/-- What is wrong with a fixture. -/
inductive Cause
  | invalidDocument
  | duplicatePath (path : String)
  | unknownPath (path : String)
  | parameterNames (owner descriptor : String) (parameters names : Nat)
  | unnamedMethod (owner : String)
  | outsideTree (path : String)
  | typeText (text : String) (fault : TypeTextFault)
  | methodSignature (text : String)
  | descriptor (error : DescriptorError)
  | metadata (error : MetadataError)
  | resolve (error : ResolveError)
deriving DecidableEq, Repr

/-- Where something is wrong. -/
inductive Place
  | field (path : String)
  | memberOf (owner : String)
  | metadataOf (path : String)
  | resolving (path : String)
deriving DecidableEq, Repr

/-- What is wrong, and where, if it does not say so itself. -/
structure Error where
  place : Option Place := none
  cause : Cause
deriving DecidableEq, Repr

/-- The cause in words. -/
def Cause.message : Cause → String
  | .invalidDocument => "invalid fixture"
  | .duplicatePath path => "duplicate fixture path `" ++ path ++ "`"
  | .unknownPath path => "no declaration at fixture path `" ++ path ++ "`"
  | .parameterNames owner given parameters names =>
    owner ++ ": descriptor " ++ given ++ " has " ++ toString parameters ++
      " parameters but " ++ toString names ++ " names are given"
  | .unnamedMethod owner => owner ++ ": method without a name"
  | .outsideTree path => path ++ " is not part of the fixture tree"
  | .typeText text fault => fault.message text
  | .methodSignature text => "`" ++ text ++ "` is not a JVM method signature"
  | .descriptor error => error.message
  | .metadata error => error.message
  | .resolve error => error.message

/-- The place in words. -/
def Place.message : Place → String
  | .field path => "field " ++ path
  | .memberOf owner => "member of " ++ owner
  | .metadataOf path => "metadata of " ++ path
  | .resolving path => "resolving `" ++ path ++ "`"

/-- The error in words. -/
def Error.message (e : Error) : String :=
  match e.place with
  | some place => place.message ++ ": " ++ e.cause.message
  | none => e.cause.message

end Correspondence.Fixture
