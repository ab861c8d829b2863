import ResolverWiring.Graphql.Token.Lexer

/-!
# `ResolverWiring.Graphql.Parser` — parsing token lists

A parser takes tokens from the front of a list. It never sees a place in the text: a failure says how
many tokens were left, and `locate` finds the place of the token at fault afterwards. What
a parser accepts therefore depends on the tokens alone.

A lexical error takes effect as soon as the token in front of it is consumed (`advance`), before any
other complaint about what follows.

## Contents

* `SyntaxError`, `Failure`, `Parser`;
* single tokens: `peek`, `advance`, `expect`, `takeMark`, `takeKeyword`, `parseName`;
* repetition: `between`, `optionalBetween`, `anyBetween`, `separated`.
-/

namespace ResolverWiring.Graphql

open ResolverWiring.Text

/-! ## Errors -/

/-- Why a token list is not in the grammar. -/
inductive SyntaxError where
  | lexical (cause : LexicalError)
  | unexpected (found : Token)
  | expected (wanted : String) (found : Token)
  | variableInConstant (name : String)
  | reservedEnumValue (found : Token)
  | misplacedDescription
deriving DecidableEq, Repr, Inhabited

/-- The wording of a syntax error. -/
def SyntaxError.message (e : SyntaxError) : String :=
  "Syntax Error: " ++ match e with
  | .lexical cause => cause.message
  | .unexpected found => "Unexpected " ++ found.describe ++ "."
  | .expected wanted found => "Expected " ++ wanted ++ ", found " ++ found.describe ++ "."
  | .variableInConstant name => "Unexpected variable '$" ++ name ++ "' in constant value."
  | .reservedEnumValue found =>
    found.describe ++ " is reserved and cannot be used for an enum value."
  | .misplacedDescription =>
    "Unexpected description, descriptions are supported only on type definitions."

/-- A syntax error, and how many tokens were left from the one at fault on. -/
structure Failure where
  cause : SyntaxError
  remaining : Nat
deriving DecidableEq, Repr, Inhabited

/-- A syntax error and its place in the text. -/
structure SyntaxFault where
  cause : SyntaxError
  position : Position
deriving DecidableEq, Repr, Inhabited

/-- A parser consumes tokens from the front of a list, or fails. -/
abbrev Parser := StateT (List Token) (Except Failure)

namespace Parser

variable {α : Type}

/-! ## Single tokens -/

/-- Fails at the token with which the list `ts` starts. -/
def failAt (ts : List Token) (cause : SyntaxError) : Parser α :=
  fun _ => .error ⟨cause, ts.length⟩

/-- The token in front; a list that has run out is at the end of the input. -/
def front (ts : List Token) : Token := ts.headD .endOfInput

/-- The token in front, which stays. -/
def peek : Parser Token := fun ts => .ok (front ts, ts)

/-- The token behind the one in front; both stay. -/
def peekSecond : Parser Token := fun ts =>
  match ts.tail with
  | .invalid cause :: r => .error ⟨.lexical cause, r.length + 1⟩
  | r => .ok (front r, ts)

/-- Goes on with the tokens `ts`, unless they start with a lexical error. -/
def resume (a : α) : List Token → Except Failure (α × List Token)
  | .invalid cause :: r => .error ⟨.lexical cause, r.length + 1⟩
  | ts => .ok (a, ts)

/-- Consumes the token in front. -/
def advance : Parser Unit := fun ts => resume () ts.tail

/-- Complains about the token in front. -/
def unexpected : Parser α := fun ts => .error ⟨.unexpected (front ts), ts.length⟩

/-- Asks for another token than the one in front. -/
def failExpected (wanted : String) : Parser α := fun ts =>
  .error ⟨.expected wanted (front ts), ts.length⟩

/-- Consumes this token, which has only one spelling. -/
def expect (mark : Punctuator) : Parser Unit := do
  if (← peek) = .punctuator mark then advance else failExpected (Token.punctuator mark).sort

/-- Consumes this mark if it is in front, and says whether it was. -/
def takeMark (mark : Punctuator) : Parser Bool := do
  if (← peek) = .punctuator mark then
    advance
    return true
  else
    return false

/-- Consumes this keyword, which is a name like any other. -/
def expectKeyword (word : String) : Parser Unit := do
  if (← peek) = .name word then advance else failExpected ("'" ++ word ++ "'")

/-- Consumes this keyword if it is in front, and says whether it was. -/
def takeKeyword (word : String) : Parser Bool := do
  if (← peek) = .name word then
    advance
    return true
  else
    return false

/-- Consumes a name. -/
def parseName : Parser String := do
  match ← peek with
  | .name text =>
    advance
    return text
  | _ => failExpected "Name"

/-- Consumes the end of the input, which stays in front. -/
def expectEnd : Parser Unit := do
  if (← peek) = .endOfInput then return () else failExpected Token.endOfInput.sort

/-! ## Repetition

A round of a repetition takes at least one token, so there are no more rounds than tokens; `bounded`
hands out that number. -/

/-- Runs a parser that is given the number of tokens left, and one more, as a bound. -/
def bounded (p : Nat → Parser α) : Parser α := fun ts => p (ts.length + 1) ts

/-- Items up to a closing mark, which is consumed; perhaps none. -/
def itemsUntil (close : Punctuator) (item : Parser α) : Nat → Parser (List α)
  | 0 => unexpected
  | bound + 1 => do
    if ← takeMark close then return []
    let first ← item
    let others ← itemsUntil close item bound
    return first :: others

/-- One item or more between two marks. -/
def between (opening : Punctuator) (item : Parser α) (closing : Punctuator) : Parser (List α) := do
  expect opening
  let first ← item
  let others ← bounded (itemsUntil closing item)
  return first :: others

/-- One item or more between two marks, or nothing at all. -/
def optionalBetween (opening : Punctuator) (item : Parser α) (closing : Punctuator) :
    Parser (List α) := do
  if (← peek) = .punctuator opening then between opening item closing else return []

/-- Any number of items between two marks. -/
def anyBetween (opening : Punctuator) (item : Parser α) (closing : Punctuator) :
    Parser (List α) := do
  expect opening
  bounded (itemsUntil closing item)

/-- Items, each behind the mark. -/
def itemsBehind (mark : Punctuator) (item : Parser α) : Nat → Parser (List α)
  | 0 => unexpected
  | bound + 1 => do
    if ← takeMark mark then
      let first ← item
      let others ← itemsBehind mark item bound
      return first :: others
    else
      return []

/-- One item or more with the mark between them, and perhaps in front of the first. -/
def separated (mark : Punctuator) (item : Parser α) : Parser (List α) := do
  discard (takeMark mark)
  let first ← item
  let others ← bounded (itemsBehind mark item)
  return first :: others

/-- Items as long as the mark, with which every item starts, is in front. -/
def itemsWhile (mark : Punctuator) (item : Parser α) : Nat → Parser (List α)
  | 0 => unexpected
  | bound + 1 => do
    if (← peek) = .punctuator mark then
      let first ← item
      let others ← itemsWhile mark item bound
      return first :: others
    else
      return []

/-! ## Running a parser on a text -/

/-- The place of a failure in the text with these tokens. -/
def locate (text : List Char) (lexemes : List Lexeme) (failure : Failure) : SyntaxFault :=
  let rest := match lexemes[lexemes.length - failure.remaining]? with
    | some lexeme => lexeme.place
    | none => []
  ⟨failure.cause, Position.ofOffset text (text.length - rest.length)⟩

/-- Runs a parser on a list of tokens, of which it may leave some. -/
def runOn (p : Parser α) (ts : List Token) : Except Failure α := do
  let (_, ts) ← resume () ts
  let (a, _) ← p ts
  return a

/-- Runs a parser on a text. -/
def parseText (p : Parser α) (text : String) : Except SyntaxFault α :=
  let lexemes := lex text.toList
  match runOn p (lexemes.map (·.token)) with
  | .ok a => .ok a
  | .error failure => .error (locate text.toList lexemes failure)

end Parser

end ResolverWiring.Graphql
