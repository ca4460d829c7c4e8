import Correspondence.Decl.Host

/-!
# Signatures of compiled members

A signature is the name of a method, the descriptors of its parameters in parentheses, and the
descriptor of its result. Every constructor has the name `<init>` and no result.
-/

namespace Correspondence

/-- The name of every constructor. -/
def constructorName : String := "<init>"

/-- The descriptor of the class of all objects. -/
def objectDescriptor : String := "Ljava/lang/Object;"

namespace Host

/-- The descriptor of a parameter. A parameter without a type may hold any object. -/
def parameterDescriptor (host : Host) (parameter : DeclId) : String :=
  ((host.type parameter).map JvmType.descriptor).getD objectDescriptor

/-- The signature of a method or constructor. A method without a type has no result. -/
def signature (host : Host) (id : DeclId) : String :=
  let isConstructor := host.kind id = .constructor
  let name := if isConstructor then constructorName else host.simpleName id
  let parameters := (host.parameters id).map host.parameterDescriptor
  let result :=
    if isConstructor then "V" else ((host.type id).map JvmType.descriptor).getD "V"
  name ++ "(" ++ String.join parameters ++ ")" ++ result

end Host

end Correspondence
