import ResolverWiring.Text.Lines

/-!
# `ResolverWiring.Graphql.BlockString` — the text of a block string

A block string is written between triple quotes. Between them a line break stands for itself, only
`\"""` is escaped, and the indentation that all lines but the first have in common does not belong to
the text. `dedent` goes from the written lines to the text, `write` from the text to a written form.

`write` sets the quotes on lines of their own when the text has several lines, is long, or ends in a
character that would run into the closing quotes.
-/

namespace ResolverWiring.Graphql.BlockString

open ResolverWiring.Text

/-- Blanks that count as indentation. -/
def isIndent (c : Char) : Bool := c == ' ' || c == '\t'

/-- The number of blanks in front of a line. -/
def indentOf (line : List Char) : Nat := (line.takeWhile isIndent).length

/-- A line is blank if it holds nothing but indentation. -/
def isBlank (line : List Char) : Bool := line.all isIndent

/-- The indentation that all lines that are not blank have in common; without such a line none. -/
def commonIndent (lines : List (List Char)) : Nat :=
  ((lines.filter (!isBlank ·)).map indentOf).min?.getD 0

/-- Blank lines at the end are dropped. -/
def dropTrailingBlank (lines : List (List Char)) : List (List Char) :=
  (lines.reverse.dropWhile isBlank).reverse

/-- The lines of the text: all lines but the first lose the common indentation, and blank lines in
front and at the end are dropped. -/
def dedentLines : List (List Char) → List (List Char)
  | [] => []
  | first :: rest =>
    let indent := commonIndent rest
    dropTrailingBlank ((first :: rest.map (·.drop indent)).dropWhile isBlank)

/-- The text of a block string from what stands between its quotes, escapes resolved. -/
def dedent (written : List Char) : List Char :=
  joinLines (dedentLines (splitLines written))

/-- Three quotes in a row are written with a backslash in front. -/
def escapeQuotes : List Char → List Char
  | '"' :: '"' :: '"' :: cs => '\\' :: '"' :: '"' :: '"' :: escapeQuotes cs
  | c :: cs => c :: escapeQuotes cs
  | [] => []

/-- A text of more characters than this is set on lines of its own. -/
def longestInline : Nat := 70

/-- The written form of a text, quotes included. -/
def write (text : List Char) : List Char :=
  let escaped := escapeQuotes text
  let lines := splitLines escaped
  let singleLine := lines.length ≤ 1
  let laterLinesIndented := lines.length > 1 &&
    lines.tail.all fun line => line.head?.all isIndent
  let endsInTripleQuotes := ['\\', '"', '"', '"'].isSuffixOf escaped
  let needsBreakAtEnd :=
    (text.getLast? == some '"' && !endsInTripleQuotes) || text.getLast? == some '\\'
  let onOwnLines := !singleLine || text.length > longestInline || needsBreakAtEnd
    || laterLinesIndented || endsInTripleQuotes
  let keepsFirstLine := singleLine && text.head?.any isIndent
  let before := if (onOwnLines && !keepsFirstLine) || laterLinesIndented then ['\n'] else []
  let after := if onOwnLines || needsBreakAtEnd then ['\n'] else []
  ['"', '"', '"'] ++ before ++ escaped ++ after ++ ['"', '"', '"']

end ResolverWiring.Graphql.BlockString
