import ResolverWiring.Text.Hex
import ResolverWiring.Yaml.Printer.Style

/-!
# `ResolverWiring.Yaml.Printer.Scalar` — writing scalars

Each style has a writer. A writer knows the column where it starts and the indentation of further
lines, and folds a line at the first space behind the line width, unless the scalar is a key, which
stays on one line.

## Contents

* `writePlain`, `writeSingle`, `writeDouble`, `writeLiteral`;
* `writeScalar`, which chooses among them.
-/

namespace ResolverWiring.Yaml

open Text

/-- A line is folded behind this column. -/
def lineWidth : Nat := 80

/-- A line end and the indentation of the next line. -/
def newLine (indent : Nat) : List Char := '\n' :: List.replicate indent ' '

/-- Where a scalar stands: the indentation of its further lines, and whether it may have any. -/
structure Layout where
  indent : Nat
  folds : Bool
deriving DecidableEq, Repr, Inhabited

/-- Whether a line is folded at a column. -/
def Layout.foldsAt (layout : Layout) (column : Nat) : Bool := layout.folds && lineWidth < column

/-! ## Plain and single-quoted scalars -/

/-- Whether a space stands alone, between the character `before?` and the text `cs`. -/
def isLoneSpace (before? : Option Char) (c : Char) (cs : List Char) : Bool :=
  c == ' ' && before? != some ' ' && cs.head? != some ' '

/-- A plain scalar from a column on, behind the character `before?`. -/
def writePlain (layout : Layout) (column : Nat) (before? : Option Char) : List Char → List Char
  | [] => []
  | c :: cs =>
    if isLoneSpace before? c cs && layout.foldsAt column then
      newLine layout.indent ++ writePlain layout layout.indent (some c) cs
    else c :: writePlain layout (column + 1) (some c) cs

/-- The inside of a single-quoted scalar. A run of line feeds has one line end more than feeds. -/
def writeSingle (layout : Layout) (column : Nat) (before? : Option Char) : List Char → List Char
  | [] => []
  | c :: cs =>
    if c == '\n' then
      let lineEnds := if before? == some '\n' then ['\n'] else ['\n', '\n']
      if cs.head? == some '\n' then lineEnds ++ writeSingle layout 0 (some c) cs
      else
        lineEnds ++ List.replicate layout.indent ' ' ++ writeSingle layout layout.indent (some c) cs
    else if isLoneSpace before? c cs && before?.isSome && !cs.isEmpty && layout.foldsAt column then
      newLine layout.indent ++ writeSingle layout layout.indent (some c) cs
    else if c == '\'' then '\'' :: '\'' :: writeSingle layout (column + 2) (some c) cs
    else c :: writeSingle layout (column + 1) (some c) cs

/-! ## Double-quoted scalars -/

/-- The letter of a short escape. -/
def escapeLetter? : Char → Option Char
  | '\x00' => some '0'
  | '\x07' => some 'a'
  | '\x08' => some 'b'
  | '\t' => some 't'
  | '\n' => some 'n'
  | '\x0b' => some 'v'
  | '\x0c' => some 'f'
  | '\r' => some 'r'
  | '\x1b' => some 'e'
  | '"' => some '"'
  | '\\' => some '\\'
  | '\u0085' => some 'N'
  | '\u00a0' => some '_'
  | '\u2028' => some 'L'
  | '\u2029' => some 'P'
  | _ => none

/-- Whether a character is escaped in double quotes. -/
def needsEscape (c : Char) : Bool := c == '"' || c == '\\' || !isVisible c

/-- The escape of a character. -/
def escapeOf (c : Char) : List Char :=
  match escapeLetter? c with
  | some letter => ['\\', letter]
  | none =>
    if c.toNat ≤ 0xff then '\\' :: 'x' :: upperHex 2 c.toNat
    else if c.toNat ≤ 0xffff then '\\' :: 'u' :: upperHex 4 c.toNat
    else '\\' :: 'U' :: upperHex 8 c.toNat

/-- A fold in front of the text `cs`: a backslash joins the lines, and another one keeps a space that
comes first on the next line. -/
def foldBefore (indent : Nat) (cs : List Char) : List Char :=
  '\\' :: newLine indent ++ if cs.head? == some ' ' then ['\\'] else []

/-- The column behind a fold. -/
def foldColumn (indent : Nat) (cs : List Char) : Nat :=
  indent + if cs.head? == some ' ' then 1 else 0

/-- The inside of a double-quoted scalar. Folds are at spaces and next to escapes, but not next to the
first and the last character; `escaped` says whether an escape is in front, `first` whether nothing
is. -/
def writeDouble (layout : Layout) (column : Nat) (first escaped : Bool) : List Char → List Char
  | [] => []
  | c :: cs =>
    let inside := !first && !cs.isEmpty
    if needsEscape c then
      let escape := escapeOf c
      let column := column + escape.length
      if inside && layout.foldsAt (column - 1) then
        escape ++ foldBefore layout.indent cs
          ++ writeDouble layout (foldColumn layout.indent cs) false true cs
      else escape ++ writeDouble layout column false true cs
    else if inside && (c == ' ' || escaped) && layout.foldsAt column then
      foldBefore layout.indent (c :: cs)
        ++ c :: writeDouble layout (foldColumn layout.indent (c :: cs) + 1) false false cs
    else c :: writeDouble layout (column + 1) false false cs

/-! ## Literal blocks -/

/-- The lines of a literal block, each behind its indentation; the last line end is left to whoever
goes on. -/
def writeLiteral (indent : Nat) (text : List Char) : List Char :=
  let lines := if text.getLast? == some '\n' then text.dropLast else text
  '|' :: newLine indent
    ++ lines.flatMap fun c => if c == '\n' then newLine indent else [c]

/-! ## Scalars -/

/-- A scalar from a column on. -/
def writeScalar (layout : Layout) (column : Nat) (tag : CoreTag) (text : List Char) : List Char :=
  match styleOf tag text with
  | .plain => writePlain layout column none text
  | .single => '\'' :: (writeSingle layout (column + 1) none text ++ ['\''])
  | .double => '"' :: (writeDouble layout (column + 1) true false text ++ ['"'])
  | .literal => writeLiteral layout.indent text

end ResolverWiring.Yaml
