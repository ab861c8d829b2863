import ResolverWiring.Graphql.Rules.Problem

/-!
# `ResolverWiring.Graphql.Rules.Vocabulary` — the types and directives that a document can name

The names that the language itself provides, and those that a document declares. Where a document
declares a name several times, the last declaration counts.
-/

namespace ResolverWiring.Graphql

/-! ## What the language provides -/

/-- The scalars of the language. -/
def builtInScalars : List String := ["String", "Int", "Float", "Boolean", "ID"]

/-- The types that describe schemas themselves, with their kinds. -/
def introspectionTypes : List (String × TypeSort) :=
  [("__Schema", .object), ("__Directive", .object), ("__DirectiveLocation", .enum),
    ("__Type", .object), ("__Field", .object), ("__InputValue", .object), ("__EnumValue", .object),
    ("__TypeKind", .enum)]

/-- The kind of a type that the language provides. -/
def builtInSort? (name : String) : Option TypeSort :=
  if builtInScalars.contains name then some .scalar else introspectionTypes.lookup name

/-- The names of the values of an enum type that the language provides. -/
def builtInValues : String → List String
  | "__TypeKind" =>
    ["SCALAR", "OBJECT", "INTERFACE", "UNION", "ENUM", "INPUT_OBJECT", "LIST", "NON_NULL"]
  | "__DirectiveLocation" => DirectiveLocation.all.map (·.name)
  | _ => []

/-- The names of the types that the language provides. -/
def builtInNames : List String := builtInScalars ++ introspectionTypes.map (·.1)

/-- An argument definition without a description and directives. -/
def plainArgument (name : String) (type : TypeRef) (default? : Option Value) : InputValueDef :=
  ⟨none, name, type, default?, []⟩

/-- The directives of the language. -/
def builtInDirectives : List DirectiveDef :=
  let condition := [plainArgument "if" (.named "Boolean" true) none]
  let executable : List DirectiveLocation := [.field, .fragmentSpread, .inlineFragment]
  [⟨none, "include", condition, false, executable⟩,
    ⟨none, "skip", condition, false, executable⟩,
    ⟨none, "deprecated",
      [plainArgument "reason" (.named "String" false)
        (some (.string ⟨"No longer supported", false⟩))],
      false, [.fieldDefinition, .argumentDefinition, .inputFieldDefinition, .enumValue]⟩,
    ⟨none, "specifiedBy", [plainArgument "url" (.named "String" true) none], false, [.scalar]⟩]

/-! ## What a document declares -/

/-- The types that definitions define. -/
def typeDecls (definitions : List Definition) : List TypeDecl :=
  definitions.filterMap fun definition =>
    match definition with
    | .type _ decl => some decl
    | _ => none

/-- The directives that definitions define. -/
def directiveDefs (definitions : List Definition) : List DirectiveDef :=
  definitions.filterMap fun definition =>
    match definition with
    | .directive d => some d
    | _ => none

/-- The types and directives that a document declares. -/
structure Vocabulary where
  types : List TypeDecl
  directives : List DirectiveDef
deriving Repr, Inhabited

namespace Vocabulary

/-- The vocabulary of a document. -/
def ofDocument (d : Document) : Vocabulary := ⟨typeDecls d.definitions, directiveDefs d.definitions⟩

/-- The names of the declared types. -/
def typeNames (v : Vocabulary) : List String := v.types.map (·.name)

/-- The declaration of a type. -/
def type? (v : Vocabulary) (name : String) : Option TypeDecl := v.types.reverse.find? (·.name == name)

/-- The definition of a directive, by the document or by the language. -/
def directive? (v : Vocabulary) (name : String) : Option DirectiveDef :=
  (v.directives.reverse ++ builtInDirectives).find? (·.name == name)

end Vocabulary

end ResolverWiring.Graphql
