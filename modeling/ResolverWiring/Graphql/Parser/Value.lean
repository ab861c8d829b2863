import ResolverWiring.Graphql.Parser

/-!
# `ResolverWiring.Graphql.Parser.Value` — parsing values, types and directives

The parts that type definitions and executable definitions share. Values come in two forms: constant
values, which hold no variable, and values that may hold one.
-/

namespace ResolverWiring.Graphql.Parser

/-! ## Values -/

/-- The value that a name stands for. -/
def namedValue : String → Value
  | "true" => .boolean true
  | "false" => .boolean false
  | "null" => .null
  | symbol => .enum symbol

/-- A variable, where the value need not be constant. -/
def parseVariable : Parser String := do
  expect .dollar
  parseName

/-- Complains about a variable in a constant value. -/
def refuseVariable : Parser Value := do
  let start ← get
  advance
  match ← peek with
  | .name name => failAt start (.variableInConstant name)
  | _ => failAt start (.unexpected (front start))

/-- A value that is nested at most as deep as the bound says. -/
def valueWithin (constant : Bool) : Nat → Parser Value
  | 0 => unexpected
  | bound + 1 => do
    match ← peek with
    | .punctuator .bracketOpen =>
      return .list (← anyBetween .bracketOpen (valueWithin constant bound) .bracketClose)
    | .punctuator .braceOpen =>
      let field : Parser (String × Value) := do
        let name ← parseName
        expect .colon
        let value ← valueWithin constant bound
        return (name, value)
      return .object (← anyBetween .braceOpen field .braceClose)
    | .int digits =>
      advance
      return .int digits
    | .float digits =>
      advance
      return .float digits
    | .string literal =>
      advance
      return .string literal
    | .name name =>
      advance
      return namedValue name
    | .punctuator .dollar =>
      if constant then refuseVariable else return .variable (← parseVariable)
    | _ => unexpected

/-- A value; `constant` forbids variables in it. -/
def parseValue (constant : Bool) : Parser Value :=
  bounded (valueWithin constant)

/-- A named value. -/
def parseArgument (constant : Bool) : Parser Argument := do
  let name ← parseName
  expect .colon
  let value ← parseValue constant
  return ⟨name, value⟩

/-- The arguments in parentheses, if there are any. -/
def parseArguments (constant : Bool) : Parser (List Argument) :=
  optionalBetween .parenOpen (parseArgument constant) .parenClose

/-- A directive. -/
def parseDirective (constant : Bool) : Parser Directive := do
  expect .atSign
  let name ← parseName
  let arguments ← parseArguments constant
  return ⟨name, arguments⟩

/-- The directives in front. -/
def parseDirectives (constant : Bool) : Parser (List Directive) :=
  bounded (itemsWhile .atSign (parseDirective constant))

/-! ## Type references -/

/-- A type reference that is nested at most as deep as the bound says. -/
def typeWithin : Nat → Parser TypeRef
  | 0 => unexpected
  | bound + 1 => do
    if ← takeMark .bracketOpen then
      let item ← typeWithin bound
      expect .bracketClose
      return .list item (← takeMark .bang)
    else
      let name ← parseName
      return .named name (← takeMark .bang)

/-- A type reference. -/
def parseType : Parser TypeRef := bounded typeWithin

/-- The value behind an equals sign, if there is one. -/
def parseDefault : Parser (Option Value) := do
  if ← takeMark .equals then return some (← parseValue true) else return none

end ResolverWiring.Graphql.Parser
