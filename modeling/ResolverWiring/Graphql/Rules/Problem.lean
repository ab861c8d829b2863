import ResolverWiring.Graphql.Document
import ResolverWiring.Graphql.Suggestion

/-!
# `ResolverWiring.Graphql.Rules.Problem` — what is wrong with a document

The problems that can be seen in a document before a schema is built from it, and their wording.
-/

namespace ResolverWiring.Graphql

/-- The words for a place of a directive. -/
def DirectiveLocation.words : DirectiveLocation → String
  | .query => "query"
  | .mutation => "mutation"
  | .subscription => "subscription"
  | .field => "field"
  | .fragmentDefinition => "fragment definition"
  | .fragmentSpread => "fragment spread"
  | .inlineFragment => "inline fragment"
  | .variableDefinition => "variable definition"
  | .schema => "schema"
  | .scalar => "scalar"
  | .object => "object"
  | .fieldDefinition => "field definition"
  | .argumentDefinition => "argument definition"
  | .interface => "interface"
  | .union => "union"
  | .enum => "enum"
  | .enumValue => "enum value"
  | .inputObject => "input object"
  | .inputFieldDefinition => "input field definition"

/-- The kinds of types. -/
inductive TypeSort where
  | scalar
  | object
  | interface
  | union
  | enum
  | input
deriving DecidableEq, Repr, Inhabited

/-- The words for a kind of types. -/
def TypeSort.words : TypeSort → String
  | .scalar => "scalar"
  | .object => "object"
  | .interface => "interface"
  | .union => "union"
  | .enum => "enum"
  | .input => "input object"

/-- The kind of the types with a body of this form. -/
def TypeBody.sort : TypeBody → TypeSort
  | .scalar => .scalar
  | .object _ _ => .object
  | .interface _ _ => .interface
  | .union _ => .union
  | .enum _ => .enum
  | .input _ => .input

/-- The place of directives on types of this kind. -/
def TypeSort.location : TypeSort → DirectiveLocation
  | .scalar => .scalar
  | .object => .object
  | .interface => .interface
  | .union => .union
  | .enum => .enum
  | .input => .inputObject

/-- The text of a type reference. -/
def TypeRef.text : TypeRef → String
  | .named name required => name ++ if required then "!" else ""
  | .list item required => "[" ++ item.text ++ "]" ++ if required then "!" else ""

/-- What is wrong with a document. Names that may have been meant come last. -/
inductive RuleProblem where
  | severalSchemas
  | repeatedRoot (operation : OperationKind)
  | repeatedType (name : String)
  | repeatedEnumValue (type value : String)
  | repeatedField (type field : String)
  | repeatedArgumentDef (owner argument : String)
  | repeatedDirectiveDef (name : String)
  | unknownType (name : String) (meant : List String)
  | unknownDirective (name : String)
  | misplacedDirective (name : String) (location : DirectiveLocation)
  | repeatedDirective (name : String)
  | extendedKind (name : String) (sort : TypeSort)
  | extendedUndefined (name : String) (meant : List String)
  | unknownArgument (directive argument : String) (meant : List String)
  | repeatedArgument (name : String)
  | repeatedInputField (name : String)
  | missingArgument (directive argument : String) (type : TypeRef)
deriving DecidableEq, Repr, Inhabited

/-- The wording of a problem. -/
def RuleProblem.message : RuleProblem → String
  | .severalSchemas => "Must provide only one schema definition."
  | .repeatedRoot operation => "There can be only one " ++ operation.keyword ++ " type in schema."
  | .repeatedType name => "There can be only one type named '" ++ name ++ "'."
  | .repeatedEnumValue type value =>
    "Enum value '" ++ type ++ "." ++ value ++ "' can only be defined once."
  | .repeatedField type field => "Field '" ++ type ++ "." ++ field ++ "' can only be defined once."
  | .repeatedArgumentDef owner argument =>
    "Argument '" ++ owner ++ "(" ++ argument ++ ":)' can only be defined once."
  | .repeatedDirectiveDef name => "There can be only one directive named '@" ++ name ++ "'."
  | .unknownType name meant => "Unknown type '" ++ name ++ "'." ++ didYouMean meant
  | .unknownDirective name => "Unknown directive '@" ++ name ++ "'."
  | .misplacedDirective name location =>
    "Directive '@" ++ name ++ "' may not be used on " ++ location.words ++ "."
  | .repeatedDirective name =>
    "The directive '@" ++ name ++ "' can only be used once at this location."
  | .extendedKind name sort => "Cannot extend non-" ++ sort.words ++ " type '" ++ name ++ "'."
  | .extendedUndefined name meant =>
    "Cannot extend type '" ++ name ++ "' because it is not defined." ++ didYouMean meant
  | .unknownArgument directive argument meant =>
    "Unknown argument '" ++ argument ++ "' on directive '@" ++ directive ++ "'." ++ didYouMean meant
  | .repeatedArgument name => "There can be only one argument named '" ++ name ++ "'."
  | .repeatedInputField name => "There can be only one input field named '" ++ name ++ "'."
  | .missingArgument directive argument type =>
    "Directive '@" ++ directive ++ "' argument '" ++ argument ++ "' of type '" ++ type.text
      ++ "' is required, but it was not provided."

end ResolverWiring.Graphql
