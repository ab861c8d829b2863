import ResolverWiring.Graphql.Token

/-!
# `ResolverWiring.Graphql.Layout` — tokens with the blanks between them

A layout is a list of tokens and of the blanks between them. Everything that is printed is built as a
layout first: `tokens` says what it means, `render` how it looks. Blanks are all of the kind that
separates tokens without a meaning of its own.

Nesting a layout indents its later lines by one step. The lines of a block string are lines of the
layout, so a block string keeps track of how deep it stands.
-/

namespace ResolverWiring.Graphql

/-- A token, or a blank between two tokens. -/
inductive Piece where
  | token (t : Token)
  | block (depth : Nat) (text : String)
  | space
  | comma
  | line (depth : Nat)
deriving DecidableEq, Repr, Inhabited

/-- A sequence of tokens and blanks. -/
abbrev Layout := List Piece

/-- The two blanks of one indentation step, `depth` times. -/
def indentation (depth : Nat) : List Char := List.replicate (2 * depth) ' '

/-- Every line feed is followed by the indentation. -/
def indentLines (depth : Nat) (text : List Char) : List Char :=
  text.flatMap fun c => if c == '\n' then '\n' :: indentation depth else [c]

namespace Piece

/-- The piece that a string literal is. -/
def ofString (literal : StringLiteral) : Piece :=
  if literal.block then block 0 literal.text else token (.string literal)

/-- The characters of a piece. -/
def render : Piece → List Char
  | token t => t.write
  | block depth text => indentLines depth (BlockString.write text.toList)
  | space => [' ']
  | comma => [',', ' ']
  | line depth => '\n' :: indentation depth

/-- The token of a piece that is not a blank. -/
def token? : Piece → Option Token
  | token t => some t
  | block _ text => some (.string ⟨text, true⟩)
  | _ => none

/-- A piece one indentation step deeper. -/
def nest : Piece → Piece
  | block depth text => block (depth + 1) text
  | line depth => line (depth + 1)
  | piece => piece

end Piece

namespace Layout

/-- The characters of a layout. -/
def render (layout : Layout) : List Char := layout.flatMap Piece.render

/-- The tokens of a layout. -/
def tokens (layout : Layout) : List Token := layout.filterMap Piece.token?

/-- A layout one indentation step deeper; its first line stays where it is. -/
def nest (layout : Layout) : Layout := layout.map Piece.nest

/-- A layout of one mark. -/
def mark (m : Punctuator) : Layout := [.token (.punctuator m)]

/-- A layout of one name or keyword. -/
def word (text : String) : Layout := [.token (.name text)]

/-- A line break in front of an unindented line. -/
def newline : Layout := [.line 0]

/-- Layouts with a separator between them; empty ones are left out. -/
def join (separator : Layout) (parts : List Layout) : Layout :=
  List.intercalate separator (parts.filter (!·.isEmpty))

/-- A layout between two others, and nothing if it is empty. -/
def wrap (before body : Layout) (after : Layout := []) : Layout :=
  if body.isEmpty then [] else before ++ body ++ after

/-- Whether a layout takes more than one line. -/
def isMultiline (layout : Layout) : Bool := layout.render.contains '\n'

/-- Items on lines of their own between two marks, indented; nothing if there are none. -/
def onLines (opening closing : Punctuator) (items : List Layout) : Layout :=
  wrap (mark opening ++ [.line 1]) (join newline items).nest (newline ++ mark closing)

/-- Items in braces, each on its own line. -/
def block (items : List Layout) : Layout := onLines .braceOpen .braceClose items

/-- Items in parentheses on one line, with commas between them. -/
def parenthesized (items : List Layout) : Layout :=
  wrap (mark .parenOpen) (join [.comma] items) (mark .parenClose)

/-- Layouts with spaces between them; empty ones are left out. -/
def spaced (parts : List Layout) : Layout := join [.space] parts

end Layout

end ResolverWiring.Graphql
