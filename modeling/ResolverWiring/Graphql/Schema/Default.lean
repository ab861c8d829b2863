import ResolverWiring.Decimal.DigitLimit
import ResolverWiring.Graphql.Printer
import ResolverWiring.Graphql.Schema

/-!
# `ResolverWiring.Graphql.Schema.Default` — default values

A default counts only if its type takes it. To read a default as a value of an input type, the fields
of that type must be known, so its faults come to light then (`BuildFault`).

## Contents

* `BuildFault`: why no schema can be built, and its wording;
* directives with an argument of type `String` (`stringFault?`);
* `Value.read`: whether a type takes a literal;
* `Schema.inputType`: the fields of an input type, each with whether it has a default.
-/

namespace ResolverWiring.Graphql

/-! ## Faults -/

/-- What is wrong with the argument of a directive. -/
inductive ArgumentProblem where
  | missing
  | null
  | invalid (value : Value)
deriving Repr, Inhabited

/-- An argument that a directive does not take. The path names the part of the schema that bears the
directive. -/
structure ArgumentFault where
  path : List String
  directive : String
  argument : String
  problem : ArgumentProblem
deriving Repr, Inhabited

/-- The wording of a fault in an argument, which is a string. -/
def ArgumentFault.message (f : ArgumentFault) : String :=
  let argument := "Argument '" ++ f.argument ++ "'"
  match f.problem with
  | .missing => argument ++ " of required type 'String!' was not provided."
  | .null => argument ++ " of non-null type 'String!' must not be null."
  | .invalid value => argument ++ " has invalid value " ++ String.ofList value.layout.render ++ "."

/-- Why no schema can be built. -/
inductive BuildFault where
  | argument (fault : ArgumentFault)
  | argumentType
  | fieldType
  | inputFieldType
  | defaultType (name : String)
  | fields (type : String) (cause : BuildFault)
  | interfaces (type : String)
  | members (type : String)
deriving Repr, Inhabited

namespace BuildFault

/-- The wording of a fault. `place` is what is shown of the text around an argument, where a type is
named in front. -/
def message (place : ArgumentFault → String) : BuildFault → String
  | argument fault => fault.message
  | argumentType => "Argument type must be a GraphQL input type."
  | fieldType => "Field type must be an output type."
  | inputFieldType => "Input field type must be a GraphQL input type."
  | defaultType name => "Unexpected input type: " ++ name ++ "."
  | fields type cause =>
    let shown := match cause with
      | argument fault => "\n\n" ++ place fault
      | _ => ""
    type ++ " fields cannot be resolved. " ++ cause.message place ++ shown
  | interfaces type =>
    type ++ " interfaces must be specified as a collection of GraphQLInterfaceType instances."
  | members type => type ++ " types must be specified as a collection of GraphQLObjectType instances."

/-- The argument that is at fault in the end, if it is one. -/
def argument? : BuildFault → Option ArgumentFault
  | argument fault => some fault
  | fields _ cause => cause.argument?
  | _ => none

end BuildFault

/-! ## Directives with a string -/

/-- What is wrong with the argument of type `String` of the first directive with a name. -/
def stringFault? (directive argument : String) (required : Bool) (path : List String)
    (directives : List Directive) : Option ArgumentFault := do
  let d ← directives.find? (·.name == directive)
  let fault (problem : ArgumentProblem) : Option ArgumentFault :=
    some ⟨path, directive, argument, problem⟩
  match d.arguments.reverse.find? (·.name == argument) with
  | none => if required then fault .missing else none
  | some ⟨_, .string _⟩ => none
  | some ⟨_, .null⟩ => if required then fault .null else none
  | some ⟨_, value⟩ => fault (.invalid value)

/-- What is wrong with the reason of a deprecation. -/
def deprecationFault? (path : List String) (directives : List Directive) : Option BuildFault :=
  (stringFault? "deprecated" "reason" false path directives).map .argument

/-- Whether something with these directives is deprecated, with a reason that is not null. -/
def isDeprecated (directives : List Directive) : Bool :=
  match directives.find? (·.name == "deprecated") with
  | none => false
  | some d =>
    match d.arguments.reverse.find? (·.name == "reason") with
    | some ⟨_, .null⟩ => false
    | _ => true

/-! ## Literals -/

/-- Whether the digits of an integer literal denote one of 32 bits. -/
def isInt32 (digits : String) : Bool :=
  match digits.toInt? with
  | some i => -2147483648 ≤ i && i ≤ 2147483647
  | none => false

mutual

/-- Whether the integers in a literal are short enough to be read. -/
def Value.isReadable : Value → Bool
  | .int digits => (digits.toList.filter Char.isDigit).length ≤ Decimal.maxDigits
  | .list items => areReadable items
  | .object fields => fieldsAreReadable fields
  | _ => true

/-- Whether the integers in literals are short enough to be read. -/
def areReadable : List Value → Bool
  | [] => true
  | item :: others => item.isReadable && areReadable others

/-- Whether the integers in the fields of an object are short enough to be read. -/
def fieldsAreReadable : List (String × Value) → Bool
  | [] => true
  | (_, value) :: others => value.isReadable && fieldsAreReadable others

end

/-- Whether a scalar type takes a literal that is neither null nor a variable. A scalar that is not of
the language takes any that can be read. -/
def scalarTakes (name : String) (value : Value) : Bool :=
  match name, value with
  | "Int", .int digits => isInt32 digits
  | "Int", _ => false
  | "Float", .int _ => true
  | "Float", .float _ => true
  | "Float", _ => false
  | "String", .string _ => true
  | "String", _ => false
  | "Boolean", .boolean _ => true
  | "Boolean", _ => false
  | "ID", .string _ => true
  | "ID", .int _ => true
  | "ID", _ => false
  | _, value => value.isReadable

/-- A field of an input type. -/
structure InputField where
  name : String
  type : TypeRef
  hasDefault : Bool
deriving Repr, Inhabited

/-- Whether each of these holds, up to the first that does not. -/
def allHold : List (Except BuildFault Bool) → Except BuildFault Bool
  | [] => .ok true
  | first :: others => do if ← first then allHold others else return false

/-- How a literal is read as a value of a type. -/
abbrev LiteralReader := TypeRef → Except BuildFault Bool

/-- Whether an input type with these fields takes an object; other fields are passed over. -/
def takesFields (known : List InputField) (given : List (String × LiteralReader)) :
    Except BuildFault Bool :=
  allHold <| known.map fun field =>
    match given.reverse.lookup field.name with
    | none => .ok (field.hasDefault || !field.type.isRequired)
    | some reader => reader field.type

/-- Whether a type that is no list takes a literal that is neither null nor a variable; `given` are the
fields of the literal if it is an object. -/
def takesNamed (s : Schema) (inputType : String → Except BuildFault (List InputField))
    (name : String) (value : Value) (given? : Option (List (String × LiteralReader))) :
    Except BuildFault Bool :=
  match s.sort? name with
  | some .input =>
    match given? with
    | some given => do takesFields (← inputType name) given
    | none => .ok false
  | some .scalar => .ok (scalarTakes name value)
  | some .enum =>
    match value with
    | .enum symbol => .ok ((s.enumValues name).contains symbol)
    | _ => .ok false
  | _ => .error (.defaultType name)

mutual

/-- Whether a type takes a literal. A single literal stands for a list with it. -/
def Value.read (s : Schema) (inputType : String → Except BuildFault (List InputField)) :
    Value → LiteralReader
  | .null => fun type => .ok !type.isRequired
  | .variable _ => fun _ => .ok false
  | .list items =>
    let readers := readItems s inputType items
    fun type =>
      match type with
      | .list item _ => allHold (readers.map (· item))
      | .named name _ => takesNamed s inputType name (.list items) none
  | .object fields =>
    let given := readFields s inputType fields
    fun type => takesNamed s inputType type.base (.object fields) (some given)
  | value => fun type => takesNamed s inputType type.base value none

/-- How the items of a list are read. -/
def readItems (s : Schema) (inputType : String → Except BuildFault (List InputField)) :
    List Value → List LiteralReader
  | [] => []
  | item :: others => item.read s inputType :: readItems s inputType others

/-- How the fields of an object are read. -/
def readFields (s : Schema) (inputType : String → Except BuildFault (List InputField)) :
    List (String × Value) → List (String × LiteralReader)
  | [] => []
  | (name, value) :: others => (name, value.read s inputType) :: readFields s inputType others

end

/-! ## Input types -/

namespace Schema

/-- An argument definition or input field with a path, read when the fields of input types are known by
`inputType`. `wrong` is the fault of a type whose values cannot be given. -/
def inputField (s : Schema) (inputType : String → Except BuildFault (List InputField))
    (wrong : BuildFault) (path : List String) (i : InputValueDef) : Except BuildFault InputField := do
  let hasDefault ← match i.default? with
    | none => pure false
    | some value => value.read s inputType i.type
  match deprecationFault? (path ++ [i.name]) i.directives with
  | some fault => throw fault
  | none => if s.isInput i.type then return ⟨i.name, i.type, hasDefault⟩ else throw wrong

/-- The fields of an input type. The types in its defaults are resolved in turn, `bound` levels deep;
only types that need themselves go deeper than there are types. -/
def resolveInput (s : Schema) : Nat → String → Except BuildFault (List InputField)
  | 0, _ => .ok []
  | bound + 1, name =>
    ((s.inputFields name).mapM (s.inputField (s.resolveInput bound) .inputFieldType [name])).mapError
      (.fields name)

/-- The fields of an input type. -/
def inputType (s : Schema) (name : String) : Except BuildFault (List InputField) :=
  s.resolveInput s.types.length name

end Schema

/-- Whether an argument or input field has to be given: no default of its own type stands in for it. -/
def InputValueDef.mustBeGiven (s : Schema) (i : InputValueDef) : Bool :=
  i.type.isRequired && !i.default?.any fun value =>
    match value.read s s.inputType i.type with
    | .ok taken => taken
    | .error _ => false

end ResolverWiring.Graphql
