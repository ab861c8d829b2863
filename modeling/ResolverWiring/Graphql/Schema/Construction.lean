import ResolverWiring.Graphql.Schema.Default

/-!
# `ResolverWiring.Graphql.Schema.Construction` — when a schema can be built

A schema cannot be built from a document that uses a type where one of another sort is needed, such as
an input type as the type of a field, or that gives a directive of the language an argument that it
does not take. `Schema.buildFault?` finds the first such fault: the scalars and enums come first, then
the directives, then the other types, and of a type its interfaces in front of its fields.
-/

namespace ResolverWiring.Graphql.Schema

/-- The fault of an argument definition, if there is one. -/
def argumentFault? (s : Schema) (path : List String) (i : InputValueDef) : Option BuildFault :=
  match s.inputField s.inputType .argumentType path i with
  | .ok _ => none
  | .error fault => some fault

/-- The first fault in a field definition of a type; its arguments come first. -/
def fieldFault? (s : Schema) (type : String) (f : FieldDef) : Option BuildFault :=
  let path := [type, f.name]
  ((f.arguments.findSome? (s.argumentFault? path)).or (deprecationFault? path f.directives)).or
    (if s.isOutput f.type then none else some .fieldType)

/-- The first fault in a type that needs no other type. -/
def leafFault? (t : SchemaType) : Option BuildFault :=
  match t.body with
  | .scalar => (stringFault? "specifiedBy" "url" true [t.name] t.directives).map .argument
  | .enum values => values.findSome? fun value =>
    deprecationFault? [t.name, value.name] value.directives
  | _ => none

/-- The first fault in a type that may need others. -/
def typeFault? (s : Schema) (t : SchemaType) : Option BuildFault :=
  let ofFields (interfaces : List String) (fields : List FieldDef) : Option BuildFault :=
    if interfaces.all fun name => s.sort? name == some .interface then
      (fields.findSome? (s.fieldFault? t.name)).map (.fields t.name)
    else some (.interfaces t.name)
  match t.body with
  | .object interfaces fields => ofFields interfaces fields
  | .interface interfaces fields => ofFields interfaces fields
  | .union members =>
    if members.all fun name => s.sort? name == some .object then none else some (.members t.name)
  | .input _ =>
    match s.inputType t.name with
    | .ok _ => none
    | .error fault => some fault
  | _ => none

/-- The first fault in the definition of a directive. -/
def directiveFault? (s : Schema) (d : DirectiveDef) : Option BuildFault :=
  d.arguments.findSome? (s.argumentFault? ["@" ++ d.name])

/-- The first fault in a schema. -/
def buildFault? (s : Schema) : Option BuildFault :=
  ((s.types.findSome? leafFault?).or (s.directives.findSome? s.directiveFault?)).or
    (s.types.findSome? s.typeFault?)

end ResolverWiring.Graphql.Schema
