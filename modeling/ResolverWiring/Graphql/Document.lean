/-!
# `ResolverWiring.Graphql.Document` — GraphQL documents

The abstract form of a GraphQL document: type-system definitions and extensions, which the wiring
reads and rewrites, and executable definitions, which it carries along untouched.

No node holds a source position, so two documents are equal exactly when they say the same thing.
What the grammar never produces is left out of the types where that costs nothing: a type reference
cannot be required twice, and a selection set that is absent is an empty list.

## Contents

* `StringLiteral`, `Value`, `Argument`, `Directive` — literals and their carriers;
* `TypeRef`, `InputValueDef`, `FieldDef`, `EnumValueDef` — the parts of type definitions;
* `TypeBody`, `TypeDecl`, `DirectiveDef`, `Definition`, `Document`.
-/

namespace ResolverWiring.Graphql

/-! ## Literals -/

/-- A string literal: its text, and whether it is written as a block string. -/
structure StringLiteral where
  text : String
  block : Bool
deriving DecidableEq, Repr, Inhabited

/-- A literal value, or a variable where variables are allowed. Numbers keep their spelling. -/
inductive Value where
  | variable (name : String)
  | int (digits : String)
  | float (digits : String)
  | string (literal : StringLiteral)
  | boolean (value : Bool)
  | null
  | enum (symbol : String)
  | list (items : List Value)
  | object (fields : List (String × Value))
deriving Repr, Inhabited

/-- A named value, given to a directive or to a selected field. -/
structure Argument where
  name : String
  value : Value
deriving Repr, Inhabited

/-- A use of a directive. `@d` and `@d()` do not differ: the second is not in the grammar. -/
structure Directive where
  name : String
  arguments : List Argument
deriving Repr, Inhabited

/-! ## Types and the parts of type definitions -/

/-- A reference to a type; `required` is the mark `!`. -/
inductive TypeRef where
  | named (name : String) (required : Bool)
  | list (item : TypeRef) (required : Bool)
deriving DecidableEq, Repr, Inhabited

/-- The name at the core of a type reference. -/
def TypeRef.base : TypeRef → String
  | .named name _ => name
  | .list item _ => item.base

/-- Whether the reference carries the mark `!` on its outside. -/
def TypeRef.isRequired : TypeRef → Bool
  | .named _ required => required
  | .list _ required => required

/-- An argument of a field or directive definition, or a field of an input type. -/
structure InputValueDef where
  description : Option StringLiteral
  name : String
  type : TypeRef
  default? : Option Value
  directives : List Directive
deriving Repr, Inhabited

/-- A field of an object or interface type. -/
structure FieldDef where
  description : Option StringLiteral
  name : String
  arguments : List InputValueDef
  type : TypeRef
  directives : List Directive
deriving Repr, Inhabited

/-- A value of an enum type. -/
structure EnumValueDef where
  description : Option StringLiteral
  name : String
  directives : List Directive
deriving Repr, Inhabited

/-- What a type is made of. -/
inductive TypeBody where
  | scalar
  | object (interfaces : List String) (fields : List FieldDef)
  | interface (interfaces : List String) (fields : List FieldDef)
  | union (members : List String)
  | enum (values : List EnumValueDef)
  | input (fields : List InputValueDef)
deriving Repr, Inhabited

/-- The fields of an object or interface body; other bodies have none of this sort. -/
def TypeBody.outputFields : TypeBody → List FieldDef
  | .object _ fields => fields
  | .interface _ fields => fields
  | _ => []

/-- The interfaces that an object or interface body names. -/
def TypeBody.interfaces : TypeBody → List String
  | .object interfaces _ => interfaces
  | .interface interfaces _ => interfaces
  | _ => []

/-- Whether a body brings nothing to a type. -/
def TypeBody.isEmpty : TypeBody → Bool
  | .scalar => true
  | .object interfaces fields => interfaces.isEmpty && fields.isEmpty
  | .interface interfaces fields => interfaces.isEmpty && fields.isEmpty
  | .union members => members.isEmpty
  | .enum values => values.isEmpty
  | .input fields => fields.isEmpty

/-- A block that declares a type or extends one. -/
structure TypeDecl where
  name : String
  directives : List Directive
  body : TypeBody
deriving Repr, Inhabited

/-- The three kinds of operation. -/
inductive OperationKind where
  | query
  | mutation
  | subscription
deriving DecidableEq, Repr, Inhabited

/-- The keyword of an operation kind. -/
def OperationKind.keyword : OperationKind → String
  | .query => "query"
  | .mutation => "mutation"
  | .subscription => "subscription"

/-- The operation kind with this keyword. -/
def OperationKind.ofKeyword? : String → Option OperationKind
  | "query" => some .query
  | "mutation" => some .mutation
  | "subscription" => some .subscription
  | _ => none

theorem OperationKind.ofKeyword?_keyword (k : OperationKind) : ofKeyword? k.keyword = some k := by
  cases k <;> rfl

/-- One line of a schema block: the root type of an operation. -/
structure RootType where
  operation : OperationKind
  type : String
deriving DecidableEq, Repr, Inhabited

/-- The places at which a directive may stand. -/
inductive DirectiveLocation where
  | query
  | mutation
  | subscription
  | field
  | fragmentDefinition
  | fragmentSpread
  | inlineFragment
  | variableDefinition
  | schema
  | scalar
  | object
  | fieldDefinition
  | argumentDefinition
  | interface
  | union
  | enum
  | enumValue
  | inputObject
  | inputFieldDefinition
deriving DecidableEq, Repr, Inhabited

namespace DirectiveLocation

/-- Every place, in the order of the language definition. -/
def all : List DirectiveLocation :=
  [.query, .mutation, .subscription, .field, .fragmentDefinition, .fragmentSpread, .inlineFragment,
    .variableDefinition, .schema, .scalar, .object, .fieldDefinition, .argumentDefinition,
    .interface, .union, .enum, .enumValue, .inputObject, .inputFieldDefinition]

/-- The name of a place in a directive definition. -/
def name : DirectiveLocation → String
  | .query => "QUERY"
  | .mutation => "MUTATION"
  | .subscription => "SUBSCRIPTION"
  | .field => "FIELD"
  | .fragmentDefinition => "FRAGMENT_DEFINITION"
  | .fragmentSpread => "FRAGMENT_SPREAD"
  | .inlineFragment => "INLINE_FRAGMENT"
  | .variableDefinition => "VARIABLE_DEFINITION"
  | .schema => "SCHEMA"
  | .scalar => "SCALAR"
  | .object => "OBJECT"
  | .fieldDefinition => "FIELD_DEFINITION"
  | .argumentDefinition => "ARGUMENT_DEFINITION"
  | .interface => "INTERFACE"
  | .union => "UNION"
  | .enum => "ENUM"
  | .enumValue => "ENUM_VALUE"
  | .inputObject => "INPUT_OBJECT"
  | .inputFieldDefinition => "INPUT_FIELD_DEFINITION"

/-- The place with this name. -/
def ofName? (text : String) : Option DirectiveLocation :=
  all.find? (·.name == text)

theorem ofName?_name (l : DirectiveLocation) : ofName? l.name = some l := by
  cases l <;> rfl

end DirectiveLocation

/-- The definition of a directive. -/
structure DirectiveDef where
  description : Option StringLiteral
  name : String
  arguments : List InputValueDef
  repeatable : Bool
  locations : List DirectiveLocation
deriving Repr, Inhabited

/-! ## Executable definitions -/

/-- An item of a selection set; an absent nested set is an empty list. -/
inductive Selection where
  | field (alias? : Option String) (name : String) (arguments : List Argument)
      (directives : List Directive) (selections : List Selection)
  | spread (fragment : String) (directives : List Directive)
  | inline (on? : Option String) (directives : List Directive) (selections : List Selection)
deriving Repr, Inhabited

/-- A variable that an operation declares. -/
structure VariableDef where
  name : String
  type : TypeRef
  default? : Option Value
  directives : List Directive
deriving Repr, Inhabited

/-- A query, mutation or subscription. -/
structure Operation where
  kind : OperationKind
  name? : Option String
  variableDefs : List VariableDef
  directives : List Directive
  selections : List Selection
deriving Repr, Inhabited

/-- A named fragment. -/
structure Fragment where
  name : String
  on : String
  directives : List Directive
  selections : List Selection
deriving Repr, Inhabited

/-! ## Documents -/

/-- A top-level item of a document. -/
inductive Definition where
  | operation (operation : Operation)
  | fragment (fragment : Fragment)
  | schema (description : Option StringLiteral) (directives : List Directive)
      (roots : List RootType)
  | type (description : Option StringLiteral) (decl : TypeDecl)
  | directive (definition : DirectiveDef)
  | extendSchema (directives : List Directive) (roots : List RootType)
  | extendType (decl : TypeDecl)
deriving Repr, Inhabited

/-- A document is its definitions, in order. -/
structure Document where
  definitions : List Definition
deriving Repr, Inhabited

/-- The name that a type-system definition or extension declares or extends. Schema blocks and
executable definitions have none. -/
def Definition.declaredName? : Definition → Option String
  | .type _ decl => some decl.name
  | .extendType decl => some decl.name
  | .directive definition => some definition.name
  | _ => none

end ResolverWiring.Graphql
