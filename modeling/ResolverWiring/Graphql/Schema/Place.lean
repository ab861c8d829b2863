import ResolverWiring.Graphql.Schema.Default
import ResolverWiring.Graphql.Token.Lexer

/-!
# `ResolverWiring.Graphql.Schema.Place` — where an argument of a directive stands

A document does not know the text it was read from. Its directives stand in the same order as the
signs `@` of the text, so the place of an argument is found by counting these signs: first in the
document (`Document.signOf?`), then in the text (`ArgumentFault.place`).
-/

namespace ResolverWiring.Graphql

open ResolverWiring.Text

/-! ## Counting in a document -/

/-- The number of directive signs that something is written with. -/
def signs (layout : Layout) : Nat :=
  (layout.filter (· == .token (.punctuator .atSign))).length

/-- A list of directives in a document: the path of what bears it, and the number of signs in front. -/
structure Bearer where
  path : List String
  before : Nat
  directives : List Directive
deriving Repr, Inhabited

/-- The bearers in parts that follow each other, behind a number of signs. -/
def bearersIn {α : Type} (layout : α → Layout) (bearers : Nat → α → List Bearer) (before : Nat) :
    List α → List Bearer
  | [] => []
  | part :: others =>
    bearers before part ++ bearersIn layout bearers (before + signs (layout part)) others

/-- The bearer that an argument definition or input field is. -/
def InputValueDef.bearers (path : List String) (before : Nat) (i : InputValueDef) : List Bearer :=
  [⟨path ++ [i.name], before, i.directives⟩]

/-- The bearers in a field definition. -/
def FieldDef.bearers (path : List String) (before : Nat) (f : FieldDef) : List Bearer :=
  let path := path ++ [f.name]
  bearersIn InputValueDef.layout (InputValueDef.bearers path) before f.arguments
    ++ [⟨path, before + signs (argumentDefsLayout f.arguments), f.directives⟩]

/-- The bearer that an enum value is. -/
def EnumValueDef.bearers (path : List String) (before : Nat) (e : EnumValueDef) : List Bearer :=
  [⟨path ++ [e.name], before, e.directives⟩]

/-- The bearers in a type block, without the type itself. -/
def TypeDecl.bearers (before : Nat) (decl : TypeDecl) : List Bearer :=
  let path := [decl.name]
  let before := before + decl.directives.length
  match decl.body with
  | .object _ fields => bearersIn FieldDef.layout (FieldDef.bearers path) before fields
  | .interface _ fields => bearersIn FieldDef.layout (FieldDef.bearers path) before fields
  | .enum values => bearersIn EnumValueDef.layout (EnumValueDef.bearers path) before values
  | .input fields => bearersIn InputValueDef.layout (InputValueDef.bearers path) before fields
  | _ => []

/-- The bearers in a definition. -/
def Definition.bearers (before : Nat) : Definition → List Bearer
  | .type _ decl => ⟨[decl.name], before, decl.directives⟩ :: decl.bearers before
  | .extendType decl => decl.bearers before
  | .directive d =>
    bearersIn InputValueDef.layout (InputValueDef.bearers ["@" ++ d.name]) (before + 1) d.arguments
  | _ => []

/-- The bearers in a document. -/
def Document.bearers (d : Document) : List Bearer :=
  bearersIn Definition.layout Definition.bearers 0 d.definitions

/-- The number of signs in front of the directive at fault. -/
def Document.signOf? (d : Document) (fault : ArgumentFault) : Option Nat := do
  let bearer ← d.bearers.find? (·.path == fault.path)
  return bearer.before + (← bearer.directives.findIdx? (·.name == fault.directive))

/-! ## Finding in a text -/

/-- The tokens from the sign with this number on, counted from zero. -/
def fromSign (number : Nat) : List Lexeme → List Lexeme
  | [] => []
  | lexeme :: others =>
    if lexeme.token = .punctuator .atSign then
      match number with
      | 0 => lexeme :: others
      | number + 1 => fromSign number others
    else fromSign number others

/-- Brackets that open. -/
def opens (token : Token) : Bool :=
  token = .punctuator .parenOpen || token = .punctuator .bracketOpen
    || token = .punctuator .braceOpen

/-- Brackets that close. -/
def closes (token : Token) : Bool :=
  token = .punctuator .parenClose || token = .punctuator .bracketClose
    || token = .punctuator .braceClose

/-- The value of an argument with this name, inside `depth` brackets. -/
def argumentValue? (argument : String) (depth : Nat) : List Lexeme → Option Lexeme
  | name :: colon :: others =>
    if depth = 1 && name.token = .name argument && colon.token = .punctuator .colon then
      others.head?
    else if closes name.token && depth ≤ 1 then none
    else
      let depth :=
        if opens name.token then depth + 1 else if closes name.token then depth - 1 else depth
      argumentValue? argument depth (colon :: others)
  | _ => none

/-- Where the argument at fault stands in the text of a document; a missing one has the place of its
directive. -/
def ArgumentFault.place? (text : String) (d : Document) (fault : ArgumentFault) : Option Position := do
  let cs := text.toList
  let sign ← d.signOf? fault
  let lexemes := fromSign sign (lex cs)
  let lexeme ← match fault.problem with
    | .missing => lexemes.head?
    | _ => argumentValue? fault.argument 0 (lexemes.drop 2)
  return .ofOffset cs (cs.length - lexeme.place.length)

end ResolverWiring.Graphql
