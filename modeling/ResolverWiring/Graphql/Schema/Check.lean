import ResolverWiring.Graphql.Schema.Default

/-!
# `ResolverWiring.Graphql.Schema.Check` — what is wrong with a schema

`Schema.problems` lists what is wrong with a schema whose types are all of the right sort: first its
roots, then its directives, then its types.

## Contents

* `SchemaProblem` and its wording;
* names, arguments and fields;
* interfaces: what a type that implements one must provide (`implementationProblems`);
* input types that contain themselves (`cycleProblems`);
* `Schema.problems`.
-/

namespace ResolverWiring.Graphql

/-- What is wrong with a schema. -/
inductive SchemaProblem where
  | noQuery
  | rootNotObject (operation : OperationKind) (type : String)
  | reservedName (name : String)
  | requiredDeprecated (isField : Bool) (owner : String) (argument : String)
  | noFields (type : String)
  | noMembers (type : String)
  | noValues (type : String)
  | noInputFields (type : String)
  | repeatedMember (type member : String)
  | implementsItself (type : String)
  | repeatedInterface (type interface : String)
  | circularInterface (type interface : String)
  | missingInterface (type interface via : String)
  | missingField (type interface field : String)
  | fieldType (type interface field : String) (expected found : TypeRef)
  | missingArgument (type interface field argument : String)
  | argumentType (type interface field argument : String) (expected found : TypeRef)
  | requiredArgument (type interface field argument : String)
  | inputCycle (type : String) (path : List String)
deriving DecidableEq, Repr, Inhabited

/-- The word for an operation at the start of a sentence. -/
def OperationKind.title : OperationKind → String
  | .query => "Query"
  | .mutation => "Mutation"
  | .subscription => "Subscription"

/-- The wording of a schema problem. -/
def SchemaProblem.message : SchemaProblem → String
  | .noQuery => "Query root type must be provided."
  | .rootNotObject operation type =>
    operation.title ++ " root type must be Object type"
      ++ (if operation = .query then "" else " if provided") ++ ", it cannot be " ++ type ++ "."
  | .reservedName name =>
    "Name '" ++ name ++ "' must not begin with '__', which is reserved by GraphQL introspection."
  | .requiredDeprecated true owner field =>
    "Required input field " ++ owner ++ "." ++ field ++ " cannot be deprecated."
  | .requiredDeprecated false owner argument =>
    "Required argument " ++ owner ++ "(" ++ argument ++ ":) cannot be deprecated."
  | .noFields type => "Type " ++ type ++ " must define one or more fields."
  | .noMembers type => "Union type " ++ type ++ " must define one or more member types."
  | .noValues type => "Enum type " ++ type ++ " must define one or more values."
  | .noInputFields type => "Input Object type " ++ type ++ " must define one or more fields."
  | .repeatedMember type member =>
    "Union type " ++ type ++ " can only include type " ++ member ++ " once."
  | .implementsItself type =>
    "Type " ++ type ++ " cannot implement itself because it would create a circular reference."
  | .repeatedInterface type interface =>
    "Type " ++ type ++ " can only implement " ++ interface ++ " once."
  | .circularInterface type interface =>
    "Type " ++ type ++ " cannot implement " ++ interface
      ++ " because it would create a circular reference."
  | .missingInterface type interface via =>
    "Type " ++ type ++ " must implement " ++ interface ++ " because it is implemented by " ++ via
      ++ "."
  | .missingField type interface field =>
    "Interface field " ++ interface ++ "." ++ field ++ " expected but " ++ type
      ++ " does not provide it."
  | .fieldType type interface field expected found =>
    "Interface field " ++ interface ++ "." ++ field ++ " expects type " ++ expected.text ++ " but "
      ++ type ++ "." ++ field ++ " is type " ++ found.text ++ "."
  | .missingArgument type interface field argument =>
    "Interface field argument " ++ interface ++ "." ++ field ++ "(" ++ argument ++ ":) expected but "
      ++ type ++ "." ++ field ++ " does not provide it."
  | .argumentType type interface field argument expected found =>
    "Interface field argument " ++ interface ++ "." ++ field ++ "(" ++ argument ++ ":) expects type "
      ++ expected.text ++ " but " ++ type ++ "." ++ field ++ "(" ++ argument ++ ":) is type "
      ++ found.text ++ "."
  | .requiredArgument type interface field argument =>
    "Object field " ++ type ++ "." ++ field ++ " includes required argument " ++ argument
      ++ " that is missing from the Interface field " ++ interface ++ "." ++ field ++ "."
  | .inputCycle type path =>
    "Cannot reference Input Object '" ++ type
      ++ "' within itself through a series of non-null fields: '" ++ String.intercalate "." path
      ++ "'."

namespace Schema

/-! ## Names and arguments -/

/-- Names with this front are reserved. -/
def nameProblems (name : String) : List SchemaProblem :=
  if name.startsWith "__" then [.reservedName name] else []

/-- The problems of an argument definition of an owner, or of an input field of a type. -/
def inputProblems (s : Schema) (isField : Bool) (owner : String) (i : InputValueDef) :
    List SchemaProblem :=
  nameProblems i.name ++
    if i.mustBeGiven s && isDeprecated i.directives then
      [.requiredDeprecated isField owner i.name]
    else []

/-- The problems of a field of a type. -/
def fieldProblems (s : Schema) (type : String) (f : FieldDef) : List SchemaProblem :=
  nameProblems f.name ++ f.arguments.flatMap (s.inputProblems false (type ++ "." ++ f.name))

/-- The problems of the fields of a type. -/
def fieldsProblems (s : Schema) (type : String) (fields : List FieldDef) : List SchemaProblem :=
  (if fields.isEmpty then [.noFields type] else []) ++ fields.flatMap (s.fieldProblems type)

/-! ## Interfaces -/

/-- The interfaces of a type. -/
def interfacesOf (s : Schema) (name : String) : List String :=
  ((s.body? name).map (·.interfaces)).getD []

/-- Whether values of one type are values of another one that has no mark of its own: an interface that
it implements, or a union that has it as a member. -/
def isMember (s : Schema) (name abstraction : String) : Bool :=
  match s.body? abstraction with
  | some (.interface _ _) => (s.interfacesOf name).contains abstraction
  | some (.union members) => members.contains name
  | _ => false

/-- Whether a type can stand for another one: it is more special, or required where the other is not. -/
def isSubtype (s : Schema) : TypeRef → TypeRef → Bool
  | .named a required, .named b wanted => (a == b || s.isMember a b) && (required || !wanted)
  | .list a required, .list b wanted => s.isSubtype a b && (required || !wanted)
  | _, _ => false

/-- What the arguments of a field must be for an interface with the field. -/
def argumentProblems (s : Schema) (type interface : String) (field expected : FieldDef) :
    List SchemaProblem :=
  (expected.arguments.filterMap fun wanted =>
    match field.arguments.find? (·.name == wanted.name) with
    | none => some (.missingArgument type interface field.name wanted.name)
    | some given =>
      if given.type = wanted.type then none
      else some (.argumentType type interface field.name wanted.name wanted.type given.type))
  ++ field.arguments.filterMap fun given =>
    if !expected.arguments.any (·.name == given.name) && given.mustBeGiven s then
      some (.requiredArgument type interface field.name given.name)
    else none

/-- What the fields of a type must be for an interface. -/
def implementationProblems (s : Schema) (t : SchemaType) (interface : String) :
    List SchemaProblem :=
  let expected := ((s.body? interface).map (·.outputFields)).getD []
  expected.flatMap fun wanted =>
    match t.body.outputFields.find? (·.name == wanted.name) with
    | none => [.missingField t.name interface wanted.name]
    | some field =>
      (if s.isSubtype field.type wanted.type then []
        else [.fieldType t.name interface wanted.name wanted.type field.type])
      ++ s.argumentProblems t.name interface field wanted

/-- The interfaces of an interface must be interfaces of the types that implement it. -/
def ancestorProblems (s : Schema) (t : SchemaType) (interface : String) : List SchemaProblem :=
  (s.interfacesOf interface).filterMap fun ancestor =>
    if t.body.interfaces.contains ancestor then none
    else if ancestor = t.name then some (.circularInterface t.name interface)
    else some (.missingInterface t.name ancestor interface)

/-- The problems of the interfaces of a type, behind interfaces with other names. The type itself among
them is a problem at each place. -/
def interfaceProblems (s : Schema) (t : SchemaType) (seen : List String) :
    List String → List SchemaProblem
  | [] => []
  | interface :: others =>
    (if interface = t.name then [.implementsItself t.name] else [])
      ++ if seen.contains interface then
        .repeatedInterface t.name interface :: interfaceProblems s t seen others
      else
        s.ancestorProblems t interface ++ s.implementationProblems t interface
          ++ interfaceProblems s t (interface :: seen) others

/-! ## Input types that contain themselves -/

/-- The input type that a field has to hold a value of, if there is one. -/
def requiredInput? (s : Schema) (field : InputValueDef) : Option String :=
  match field.type with
  | .named name true => if s.sort? name == some .input then some name else none
  | _ => none

/-- A walk along required fields: the types that have been visited, and the problems found, the last
one first. -/
structure CycleSearch where
  visited : List String
  found : List SchemaProblem
deriving Repr, Inhabited

/-- Searches the fields of an input type for ways back to the types that the walk has come from.
`path` has these types, each with the field by which the walk left it, the last one first; the walk
visits no type twice, which `bound` counts. -/
def searchFields (s : Schema) (bound : Nat) (search : CycleSearch) (path : List (String × String))
    (type : String) : List InputValueDef → CycleSearch
  | [] => search
  | field :: others =>
    let search :=
      match s.requiredInput? field with
      | none => search
      | some next =>
        let here := (type, field.name) :: path
        match here.findIdx? (·.1 == next) with
        | some index =>
          let names := ((here.take (index + 1)).map (·.2)).reverse
          { search with found := .inputCycle next names :: search.found }
        | none =>
          match bound with
          | 0 => search
          | bound + 1 =>
            if search.visited.contains next then search
            else
              searchFields s bound { search with visited := next :: search.visited } here next
                (s.inputFields next)
    searchFields s bound search path type others
termination_by fields => (bound, fields.length)

/-- The problems of input types that contain themselves, when `visited` have been searched. -/
def cycleProblems (s : Schema) (visited : List String) (type : String) :
    List SchemaProblem × List String :=
  if visited.contains type then ([], visited)
  else
    let search :=
      s.searchFields s.types.length ⟨type :: visited, []⟩ [] type (s.inputFields type)
    (search.found.reverse, search.visited)

/-! ## Types -/

/-- The problems of a union. -/
def unionProblems (type : String) (members : List String) : List SchemaProblem :=
  let rec again (seen : List String) : List String → List SchemaProblem
    | [] => []
    | member :: others =>
      if seen.contains member then .repeatedMember type member :: again seen others
      else again (member :: seen) others
  (if members.isEmpty then [.noMembers type] else []) ++ again [] members

/-- The problems of types, when the input types `visited` have been searched for cycles. -/
def typesProblems (s : Schema) (visited : List String) : List SchemaType → List SchemaProblem
  | [] => []
  | t :: others =>
    let (own, visited) := match t.body with
      | .scalar => ([], visited)
      | .object interfaces fields =>
        (s.fieldsProblems t.name fields ++ s.interfaceProblems t [] interfaces, visited)
      | .interface interfaces fields =>
        (s.fieldsProblems t.name fields ++ s.interfaceProblems t [] interfaces, visited)
      | .union members => (unionProblems t.name members, visited)
      | .enum values =>
        ((if values.isEmpty then [.noValues t.name] else [])
          ++ values.flatMap fun value => nameProblems value.name, visited)
      | .input fields =>
        let (cycles, visited) := s.cycleProblems visited t.name
        ((if fields.isEmpty then [.noInputFields t.name] else [])
          ++ fields.flatMap (s.inputProblems true t.name) ++ cycles, visited)
    nameProblems t.name ++ own ++ typesProblems s visited others

/-! ## Schemas -/

/-- The problems of the root types. -/
def rootProblems (s : Schema) : List SchemaProblem :=
  let check (operation : OperationKind) : List SchemaProblem :=
    match s.root? operation with
    | none => if operation = .query then [.noQuery] else []
    | some type =>
      if s.sort? type == some .object then [] else [.rootNotObject operation type]
  check .query ++ check .mutation ++ check .subscription

/-- The problems of a directive. -/
def directiveProblems (s : Schema) (d : DirectiveDef) : List SchemaProblem :=
  nameProblems d.name ++ d.arguments.flatMap (s.inputProblems false ("@" ++ d.name))

/-- What is wrong with a schema. -/
def problems (s : Schema) : List SchemaProblem :=
  s.rootProblems ++ s.directives.flatMap s.directiveProblems ++ s.typesProblems [] s.types

end Schema

end ResolverWiring.Graphql
