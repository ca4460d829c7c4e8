import Correspondence.Named

/-!
# Kinds of declarations
-/

namespace Correspondence

/-- What a declaration of the compiled unit declares. -/
inductive DeclKind
  | package
  | moduleDecl
  | classType
  | interfaceType
  | enumType
  | annotationType
  | method
  | constructor
  | instanceInit
  | staticInit
  | field
  | enumConstant
  | parameter
  | typeParameter
  | localVariable
  | resourceVariable
  | exceptionParameter
  | other
deriving DecidableEq, Repr, Inhabited

namespace DeclKind

instance : Named DeclKind where
  all := [.package, .moduleDecl, .classType, .interfaceType, .enumType, .annotationType, .method,
    .constructor, .instanceInit, .staticInit, .field, .enumConstant, .parameter, .typeParameter,
    .localVariable, .resourceVariable, .exceptionParameter, .other]
  name
    | .package => "Package"
    | .moduleDecl => "Module"
    | .classType => "Class"
    | .interfaceType => "Interface"
    | .enumType => "Enum"
    | .annotationType => "AnnotationType"
    | .method => "Method"
    | .constructor => "Constructor"
    | .instanceInit => "InstanceInit"
    | .staticInit => "StaticInit"
    | .field => "Field"
    | .enumConstant => "EnumConstant"
    | .parameter => "Parameter"
    | .typeParameter => "TypeParameter"
    | .localVariable => "LocalVariable"
    | .resourceVariable => "ResourceVariable"
    | .exceptionParameter => "ExceptionParameter"
    | .other => "Other"

/-- Whether a type is declared. -/
def isType : DeclKind → Bool
  | .classType | .interfaceType | .enumType | .annotationType => true
  | _ => false

/-- Whether something that can be called is declared. -/
def isExecutable : DeclKind → Bool
  | .method | .constructor => true
  | _ => false

/-- Whether an initializer block is declared. -/
def isInitializer : DeclKind → Bool
  | .instanceInit | .staticInit => true
  | _ => false

end DeclKind

end Correspondence
