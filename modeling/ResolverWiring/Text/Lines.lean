/-!
# `ResolverWiring.Text.Lines` — line ends

Two notions of a line occur in the program, and each is one function here.

* A schema or a configuration is *read* with every line end turned into a line feed
  (`normalizeLineEnds`).
* Inside a schema a line ends at a line feed, a carriage return, or both in that order
  (`splitLines`), and a place is named by its line and column (`Position.ofOffset`).
-/

namespace ResolverWiring.Text

/-- The line feed and the carriage return. -/
def isLineEnd (c : Char) : Bool := c == '\n' || c == '\r'

/-- Every line end becomes one line feed. -/
def normalizeLineEnds : List Char → List Char
  | '\r' :: '\n' :: cs => '\n' :: normalizeLineEnds cs
  | '\r' :: cs => '\n' :: normalizeLineEnds cs
  | c :: cs => c :: normalizeLineEnds cs
  | [] => []

/-- The character `c` is put in front of the first line. -/
def consToFirst (c : Char) : List (List Char) → List (List Char)
  | line :: lines => (c :: line) :: lines
  | [] => [[c]]

/-- The lines of a text, without their ends. There is always at least one. -/
def splitLines : List Char → List (List Char)
  | [] => [[]]
  | '\r' :: '\n' :: cs => [] :: splitLines cs
  | c :: cs => if isLineEnd c then [] :: splitLines cs else consToFirst c (splitLines cs)

/-- Lines joined by line feeds. -/
def joinLines (lines : List (List Char)) : List Char :=
  List.intercalate ['\n'] lines

/-- A place in a text; lines and columns count from one. -/
structure Position where
  line : Nat
  column : Nat
deriving DecidableEq, Repr, Inhabited

namespace Position

/-- The place that lies `offset` characters further than `p`, when `cs` is the text from `p` on. -/
def advance (p : Position) : List Char → Nat → Position
  | _, 0 => p
  | [], _ => p
  | '\r' :: '\n' :: cs, offset + 2 => advance ⟨p.line + 1, 1⟩ cs offset
  | c :: cs, offset + 1 =>
    if isLineEnd c then advance ⟨p.line + 1, 1⟩ cs offset
    else advance ⟨p.line, p.column + 1⟩ cs offset

/-- The place of the character number `offset` of a text, counted from zero. -/
def ofOffset (text : List Char) (offset : Nat) : Position := advance ⟨1, 1⟩ text offset

end Position

end ResolverWiring.Text
