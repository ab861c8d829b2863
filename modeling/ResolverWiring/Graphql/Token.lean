import ResolverWiring.Graphql.BlockString
import ResolverWiring.Graphql.Document
import ResolverWiring.Text.Hex

/-!
# `ResolverWiring.Graphql.Token` — the lexical tokens of GraphQL

A token, how messages describe it, and how it is written. A text that cannot be split further ends in
the token `invalid`, which holds the reason; every other token list ends in `endOfInput`.
-/

namespace ResolverWiring.Graphql

open ResolverWiring.Text

/-! ## Lexical errors -/

/-- Why a text cannot be split into tokens. -/
inductive LexicalError where
  | singleQuote
  | unexpectedCharacter (found : Option Char)
  | digitAfterZero (found : Option Char)
  | digitExpected (found : Option Char)
  | invalidEscape (written : List Char)
  | invalidUnicodeEscape (written : List Char)
  | unterminatedString
deriving DecidableEq, Repr, Inhabited

/-- A character as messages show it: itself in quotes if it is printable ASCII, else its code
point; `<EOF>` where the input ends. -/
def describeCharacter : Option Char → String
  | none => "<EOF>"
  | some c =>
    if c == '"' then "'\"'"
    else if ' ' ≤ c && c ≤ '~' then String.ofList ['\'', c, '\'']
    else "U+" ++ String.ofList (upperHex 4 c.toNat)

/-- The wording of a lexical error. -/
def LexicalError.message : LexicalError → String
  | .singleQuote =>
    "Unexpected single quote character ('), did you mean to use a double quote (\")?"
  | .unexpectedCharacter found => "Unexpected character: " ++ describeCharacter found ++ "."
  | .digitAfterZero found =>
    "Invalid number, unexpected digit after 0: " ++ describeCharacter found ++ "."
  | .digitExpected found =>
    "Invalid number, expected digit but got: " ++ describeCharacter found ++ "."
  | .invalidEscape written =>
    "Invalid character escape sequence: '" ++ String.ofList written ++ "'."
  | .invalidUnicodeEscape written =>
    "Invalid Unicode escape sequence: '" ++ String.ofList written ++ "'."
  | .unterminatedString => "Unterminated string."

/-! ## Tokens -/

/-- The marks of the language. -/
inductive Punctuator where
  | bang
  | dollar
  | amp
  | parenOpen
  | parenClose
  | spread
  | colon
  | equals
  | atSign
  | bracketOpen
  | bracketClose
  | braceOpen
  | pipe
  | braceClose
deriving DecidableEq, Repr, Inhabited

/-- The characters of a mark. -/
def Punctuator.text : Punctuator → List Char
  | .bang => ['!']
  | .dollar => ['$']
  | .amp => ['&']
  | .parenOpen => ['(']
  | .parenClose => [')']
  | .spread => ['.', '.', '.']
  | .colon => [':']
  | .equals => ['=']
  | .atSign => ['@']
  | .bracketOpen => ['[']
  | .bracketClose => [']']
  | .braceOpen => ['{']
  | .pipe => ['|']
  | .braceClose => ['}']

/-- The mark that is this single character; the spread has three. -/
def Punctuator.ofChar? : Char → Option Punctuator
  | '!' => some .bang
  | '$' => some .dollar
  | '&' => some .amp
  | '(' => some .parenOpen
  | ')' => some .parenClose
  | ':' => some .colon
  | '=' => some .equals
  | '@' => some .atSign
  | '[' => some .bracketOpen
  | ']' => some .bracketClose
  | '{' => some .braceOpen
  | '|' => some .pipe
  | '}' => some .braceClose
  | _ => none

/-- A lexical token; numbers keep their spelling and strings have their escapes resolved. -/
inductive Token where
  | punctuator (mark : Punctuator)
  | name (text : String)
  | int (digits : String)
  | float (digits : String)
  | string (literal : StringLiteral)
  | endOfInput
  | invalid (cause : LexicalError)
deriving DecidableEq, Repr, Inhabited

namespace Token

/-- The sort of a token, as messages name it. -/
def sort : Token → String
  | punctuator mark => "'" ++ String.ofList mark.text ++ "'"
  | name _ => "Name"
  | int _ => "Int"
  | float _ => "Float"
  | string literal => if literal.block then "BlockString" else "String"
  | endOfInput => "<EOF>"
  | invalid _ => "Invalid"

/-- The text that a token carries, if its sort admits more than one. -/
def value? : Token → Option String
  | name text => some text
  | int digits => some digits
  | float digits => some digits
  | string literal => some literal.text
  | _ => none

/-- A token as messages describe it: its sort and its text. -/
def describe (t : Token) : String :=
  match t.value? with
  | some text => t.sort ++ " '" ++ text ++ "'"
  | none => t.sort

end Token

/-! ## Written forms -/

/-- A character inside a quoted string: quotes, backslashes and control characters are escaped. -/
def escapeCharacter (c : Char) : List Char :=
  if c == '"' then ['\\', '"']
  else if c == '\\' then ['\\', '\\']
  else if c == '\x08' then ['\\', 'b']
  else if c == '\t' then ['\\', 't']
  else if c == '\n' then ['\\', 'n']
  else if c == '\x0c' then ['\\', 'f']
  else if c == '\r' then ['\\', 'r']
  else if c < ' ' || ('\x7f' ≤ c && c ≤ '\u009f') then '\\' :: 'u' :: upperHex 4 c.toNat
  else [c]

/-- The written form of a string literal that is not a block string. -/
def writeQuoted (text : List Char) : List Char :=
  '"' :: (text.flatMap escapeCharacter ++ ['"'])

/-- The written form of a string literal. -/
def StringLiteral.write (literal : StringLiteral) : List Char :=
  if literal.block then BlockString.write literal.text.toList else writeQuoted literal.text.toList

/-- The written form of a token; the end of the input and an error have none. -/
def Token.write : Token → List Char
  | .punctuator mark => mark.text
  | .name text => text.toList
  | .int digits => digits.toList
  | .float digits => digits.toList
  | .string literal => literal.write
  | .endOfInput => []
  | .invalid _ => []

end ResolverWiring.Graphql
