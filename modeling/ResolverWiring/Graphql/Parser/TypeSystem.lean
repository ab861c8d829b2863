import ResolverWiring.Graphql.Parser.Selection

/-!
# `ResolverWiring.Graphql.Parser.TypeSystem` — parsing type definitions

Schema blocks, type definitions, directive definitions and extensions. A block and the extension of a
block have the same parts; an extension must bring at least one of them.
-/

namespace ResolverWiring.Graphql.Parser

/-! ## Parts of definitions -/

/-- A string in front of a definition, if there is one. -/
def parseDescription : Parser (Option StringLiteral) := do
  match ← peek with
  | .string literal =>
    advance
    return some literal
  | _ => return none

/-- An argument of a definition, or a field of an input type. -/
def parseInputValueDef : Parser InputValueDef := do
  let description ← parseDescription
  let name ← parseName
  expect .colon
  let type ← parseType
  let default? ← parseDefault
  let directives ← parseDirectives true
  return ⟨description, name, type, default?, directives⟩

/-- The arguments of a definition, if there are any. -/
def parseArgumentDefs : Parser (List InputValueDef) :=
  optionalBetween .parenOpen parseInputValueDef .parenClose

/-- A field of an object or interface type. -/
def parseFieldDef : Parser FieldDef := do
  let description ← parseDescription
  let name ← parseName
  let arguments ← parseArgumentDefs
  expect .colon
  let type ← parseType
  let directives ← parseDirectives true
  return ⟨description, name, arguments, type, directives⟩

/-- The names that cannot be enum values. -/
def reservedNames : List String := ["true", "false", "null"]

/-- A value of an enum type. -/
def parseEnumValueDef : Parser EnumValueDef := do
  let description ← parseDescription
  let start ← get
  match (front start).value? with
  | some text => if text ∈ reservedNames then failAt start (.reservedEnumValue (front start))
  | none => pure ()
  let name ← parseName
  let directives ← parseDirectives true
  return ⟨description, name, directives⟩

/-- The root type of an operation. -/
def parseRootType : Parser RootType := do
  let operation ← parseOperationKind
  expect .colon
  let type ← parseName
  return ⟨operation, type⟩

/-- The interfaces that a type implements, if it says so. -/
def parseInterfaces : Parser (List String) := do
  if ← takeKeyword "implements" then separated .amp parseName else return []

/-- The fields of an object or interface type, if there are any. -/
def parseFieldDefs : Parser (List FieldDef) :=
  optionalBetween .braceOpen parseFieldDef .braceClose

/-! ## Blocks -/

/-- The keywords that start a type block. -/
inductive TypeKeyword where
  | scalar
  | object
  | interface
  | union
  | enum
  | input
deriving DecidableEq, Repr

/-- The type keyword that this word is. -/
def TypeKeyword.ofWord? : String → Option TypeKeyword
  | "scalar" => some .scalar
  | "type" => some .object
  | "interface" => some .interface
  | "union" => some .union
  | "enum" => some .enum
  | "input" => some .input
  | _ => none

/-- What follows the keyword of a type block. -/
def parseTypeDecl (keyword : TypeKeyword) : Parser TypeDecl := do
  let name ← parseName
  match keyword with
  | .scalar => return ⟨name, ← parseDirectives true, .scalar⟩
  | .object =>
    let interfaces ← parseInterfaces
    let directives ← parseDirectives true
    return ⟨name, directives, .object interfaces (← parseFieldDefs)⟩
  | .interface =>
    let interfaces ← parseInterfaces
    let directives ← parseDirectives true
    return ⟨name, directives, .interface interfaces (← parseFieldDefs)⟩
  | .union =>
    let directives ← parseDirectives true
    let members ← do
      if ← takeMark .equals then separated .pipe parseName else pure []
    return ⟨name, directives, .union members⟩
  | .enum =>
    let directives ← parseDirectives true
    let values ← optionalBetween .braceOpen parseEnumValueDef .braceClose
    return ⟨name, directives, .enum values⟩
  | .input =>
    let directives ← parseDirectives true
    let fields ← optionalBetween .braceOpen parseInputValueDef .braceClose
    return ⟨name, directives, .input fields⟩

/-- One of the places at which a directive may stand. -/
def parseLocation : Parser DirectiveLocation := do
  let start ← get
  let word ← parseName
  match DirectiveLocation.ofName? word with
  | some location => return location
  | none => failAt start (.unexpected (front start))

/-- What follows the keyword of a directive definition. -/
def parseDirectiveDef (description : Option StringLiteral) : Parser DirectiveDef := do
  expect .atSign
  let name ← parseName
  let arguments ← parseArgumentDefs
  let repeatable ← takeKeyword "repeatable"
  expectKeyword "on"
  let locations ← separated .pipe parseLocation
  return ⟨description, name, arguments, repeatable, locations⟩

/-! ## Definitions -/

/-- What follows the keyword of an extension. -/
def parseExtension : Parser Definition := do
  let start ← get
  let keyword ← peekSecond
  match keyword with
  | .name "schema" =>
    advance
    advance
    let directives ← parseDirectives true
    let roots ← optionalBetween .braceOpen parseRootType .braceClose
    if directives.isEmpty && roots.isEmpty then unexpected
    else return .extendSchema directives roots
  | .name word =>
    match TypeKeyword.ofWord? word with
    | some keyword =>
      advance
      advance
      let decl ← parseTypeDecl keyword
      if decl.directives.isEmpty && decl.body.isEmpty then unexpected else return .extendType decl
    | none => failAt start.tail (.unexpected (front start.tail))
  | _ => failAt start.tail (.unexpected (front start.tail))

/-- A definition of the type system that starts with this keyword; `none` if no such definition
does. -/
def typeSystemDefinition? (keyword : String) : Option (Parser Definition) :=
  match keyword with
  | "schema" => some do
    let description ← parseDescription
    advance
    let directives ← parseDirectives true
    return .schema description directives (← between .braceOpen parseRootType .braceClose)
  | "directive" => some do
    let description ← parseDescription
    advance
    return .directive (← parseDirectiveDef description)
  | word => (TypeKeyword.ofWord? word).map fun keyword => do
    let description ← parseDescription
    advance
    return .type description (← parseTypeDecl keyword)

/-- A definition that starts with this keyword and takes no description. -/
def otherDefinition? (keyword : String) : Option (Parser Definition) :=
  match keyword with
  | "fragment" => some (.fragment <$> parseFragment)
  | "extend" => some parseExtension
  | word => (OperationKind.ofKeyword? word).map fun _ => .operation <$> parseOperation

/-- A definition. -/
def parseDefinition : Parser Definition := do
  let start ← get
  match front start with
  | .punctuator .braceOpen => .operation <$> parseOperation
  | token =>
    let described := token matches .string _
    let keyword ← if described then peekSecond else peek
    let rest := if described then start.tail else start
    match keyword with
    | .name word =>
      match typeSystemDefinition? word with
      | some definition => definition
      | none =>
        if described then failAt start .misplacedDescription
        else match otherDefinition? word with
          | some definition => definition
          | none => failAt rest (.unexpected keyword)
    | _ => failAt rest (.unexpected keyword)

/-- Definitions up to the end of the input. -/
def definitionsUntilEnd : Nat → Parser (List Definition)
  | 0 => unexpected
  | bound + 1 => do
    if (← peek) = .endOfInput then return []
    let first ← parseDefinition
    let others ← definitionsUntilEnd bound
    return first :: others

/-- A document, which has at least one definition. -/
def parseDocument : Parser Document := do
  let first ← parseDefinition
  let others ← bounded definitionsUntilEnd
  return ⟨first :: others⟩

end ResolverWiring.Graphql.Parser

namespace ResolverWiring.Graphql

/-! ## Reading texts -/

/-- The document that a text denotes. -/
def Document.parse (text : String) : Except SyntaxFault Document :=
  Parser.parseText Parser.parseDocument text

/-- The value that a text denotes, variables allowed. -/
def Value.parse (text : String) : Except SyntaxFault Value :=
  Parser.parseText (do
    let value ← Parser.parseValue false
    Parser.expectEnd
    return value) text

end ResolverWiring.Graphql
