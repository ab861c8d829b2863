import ResolverWiring.Graphql.Rules.Vocabulary

/-!
# `ResolverWiring.Graphql.Schema` — schemas

A schema is what a document defines: its types, each with what its extensions add, its directives, and
the root types of its operations. The types of the language are in every schema; a document that
defines a type of their names does not change them.

## Contents

* `Schema`, `Schema.ofDocument`;
* what kind of type a name has (`Schema.sort?`), and what it holds.
-/

namespace ResolverWiring.Graphql

/-! ## Types with their extensions -/

/-- A type of a schema. Its directives are those of its definition, not of its extensions. -/
structure SchemaType where
  name : String
  directives : List Directive
  body : TypeBody
deriving Repr, Inhabited

/-- A body with what an extension of the same kind adds. -/
def TypeBody.extend : TypeBody → TypeBody → TypeBody
  | .object interfaces fields, .object more added => .object (interfaces ++ more) (fields ++ added)
  | .interface interfaces fields, .interface more added =>
    .interface (interfaces ++ more) (fields ++ added)
  | .union members, .union added => .union (members ++ added)
  | .enum values, .enum added => .enum (values ++ added)
  | .input fields, .input added => .input (fields ++ added)
  | body, _ => body

/-- The blocks that extend a type. -/
def extensionsOf (definitions : List Definition) (name : String) : List TypeDecl :=
  definitions.filterMap fun definition =>
    match definition with
    | .extendType decl => if decl.name = name then some decl else none
    | _ => none

/-- A type with all its extensions. -/
def TypeDecl.extended (definitions : List Definition) (decl : TypeDecl) : SchemaType :=
  ⟨decl.name, decl.directives,
    (extensionsOf definitions decl.name).foldl (fun body extension => body.extend extension.body)
      decl.body⟩

/-! ## Schemas -/

/-- What a document defines. -/
structure Schema where
  types : List SchemaType
  directives : List DirectiveDef
  roots : List RootType
deriving Repr, Inhabited

namespace Schema

/-- The root type of an operation, if schema blocks do not name it, by the name of the type. -/
def conventionalRoots : List RootType :=
  [⟨.query, "Query"⟩, ⟨.mutation, "Mutation"⟩, ⟨.subscription, "Subscription"⟩]

/-- The roots that schema blocks name, those of the definition in front of those of extensions. -/
def namedRoots (definitions : List Definition) : List RootType :=
  let ofDefinition := definitions.flatMap fun definition =>
    match definition with
    | .schema _ _ roots => roots
    | _ => []
  let ofExtensions := definitions.flatMap fun definition =>
    match definition with
    | .extendSchema _ roots => roots
    | _ => []
  ofDefinition ++ ofExtensions

/-- Whether a document has a schema block. -/
def hasSchemaBlock (definitions : List Definition) : Bool :=
  definitions.any fun definition =>
    match definition with
    | .schema _ _ _ => true
    | _ => false

/-- The schema that a document defines. Without a schema block, types with conventional names are
roots. -/
def ofDocument (d : Document) : Schema :=
  let decls := typeDecls d.definitions
  let conventional := conventionalRoots.filter fun root => decls.any (·.name == root.type)
  let named := namedRoots d.definitions
  ⟨(decls.filter fun decl => (builtInSort? decl.name).isNone).map (·.extended d.definitions),
    directiveDefs d.definitions,
    if hasSchemaBlock d.definitions then named else conventional ++ named⟩

/-- The type with this name that a document defines. -/
def type? (s : Schema) (name : String) : Option SchemaType := s.types.find? (·.name == name)

/-- The body of the type with this name that a document defines. -/
def body? (s : Schema) (name : String) : Option TypeBody := (s.type? name).map (·.body)

/-- The kind of the type with this name. -/
def sort? (s : Schema) (name : String) : Option TypeSort :=
  (builtInSort? name).or ((s.body? name).map (·.sort))

/-- The root type of an operation. -/
def root? (s : Schema) (operation : OperationKind) : Option String :=
  (s.roots.find? (·.operation = operation)).map (·.type)

/-- Whether values of a type can be given as arguments. -/
def isInput (s : Schema) (type : TypeRef) : Bool :=
  s.sort? type.base == some .scalar || s.sort? type.base == some .enum
    || s.sort? type.base == some .input

/-- Whether fields can have a type. -/
def isOutput (s : Schema) (type : TypeRef) : Bool := s.sort? type.base != some .input

/-- The fields of an input type. -/
def inputFields (s : Schema) (name : String) : List InputValueDef :=
  match s.body? name with
  | some (.input fields) => fields
  | _ => []

/-- The names of the values of an enum type. -/
def enumValues (s : Schema) (name : String) : List String :=
  match s.body? name with
  | some (.enum values) => values.map (·.name)
  | _ => builtInValues name

end Schema

end ResolverWiring.Graphql
