import ResolverWiring.Graphql.Document

/-!
# `ResolverWiring.Binding.LocalizedError` — errors that point at schema nodes

An error about an annotation, in front of which stand the names of the nodes that lead to it.
-/

namespace ResolverWiring

open Graphql

/-! ## Kinds of values -/

/-- The kinds of literal that an argument can be required to have. -/
inductive LiteralKind where
  | int
  | float
  | string
  | boolean
  | enum
deriving DecidableEq, Repr, Inhabited

/-- The name of a kind of literal. -/
def LiteralKind.typeName : LiteralKind → String
  | .int => "Int"
  | .float => "Float"
  | .string => "String"
  | .boolean => "Boolean"
  | .enum => "Enum"

/-- The kinds of value that can be written: the literals that can be required, and others. -/
inductive ValueKind where
  | literal (kind : LiteralKind)
  | list
  | object
  | null
  | variable
deriving DecidableEq, Repr, Inhabited

/-- The short name of a kind of value. -/
def ValueKind.typeName : ValueKind → String
  | .literal kind => kind.typeName
  | .list => "List"
  | .object => "Object"
  | .null => "Null"
  | .variable => "Variable"

/-- The full name of a kind of value; a variable is not a value by name. -/
def ValueKind.fullName : ValueKind → String
  | .variable => "Variable"
  | kind => kind.typeName ++ "Value"

/-- The kind of a value. -/
def Graphql.Value.kind : Value → ValueKind
  | .variable _ => .variable
  | .int _ => .literal .int
  | .float _ => .literal .float
  | .string _ => .literal .string
  | .boolean _ => .literal .boolean
  | .null => .null
  | .enum _ => .literal .enum
  | .list _ => .list
  | .object _ => .object

/-! ## Errors -/

/-- What is wrong with an annotation. -/
inductive AnnotationProblem where
  | outsideType
  | noArguments
  | missingArgument (name : String)
  | wrongKind (name : String) (wanted : LiteralKind) (received : ValueKind)
  | other (text : String)
deriving DecidableEq, Repr, Inhabited

/-- The wording of a problem. -/
def AnnotationProblem.message : AnnotationProblem → String
  | .outsideType => "is not declared inside a type definition."
  | .noArguments => "Has no arguments."
  | .missingArgument name => "is missing required argument (" ++ name ++ ")."
  | .wrongKind name wanted received =>
    "Argument " ++ name ++ " expected to be of type " ++ wanted.typeName ++ " but received "
      ++ received.typeName ++ " instead."
  | .other text => text

/-- A problem and the names of the nodes that lead to it, the outermost first. -/
structure LocalizedError where
  path : List String
  problem : AnnotationProblem
deriving DecidableEq, Repr, Inhabited

namespace LocalizedError

/-- An error at nodes of which some may have no name; these, and empty names, are left out. -/
def atNodes (names : List (Option String)) (problem : AnnotationProblem) : LocalizedError :=
  ⟨names.filterMap fun name? => name?.filter (!·.isEmpty), problem⟩

/-- The path in brackets and the problem; the problem alone if the path is empty. -/
def message (e : LocalizedError) : String :=
  if e.path.isEmpty then e.problem.message
  else "[" ++ String.intercalate " > " e.path ++ "]: " ++ e.problem.message

end LocalizedError

end ResolverWiring
