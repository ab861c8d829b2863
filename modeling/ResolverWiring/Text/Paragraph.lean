/-!
# `ResolverWiring.Text.Paragraph` — lines of limited width

`wrap` breaks a text at spaces into lines, each as full as the width allows. A word that is wider than
a line has one of its own. Several spaces between words are kept inside a line and dropped at its end.
-/

namespace ResolverWiring.Text

/-- A line without the spaces at its end. -/
def trimEnd (line : List Char) : List Char := (line.reverse.dropWhile (· = ' ')).reverse

/-- The lines that `line` and the words behind it fill. -/
def fillLines (width : Nat) (line : List Char) : List (List Char) → List (List Char)
  | [] => [trimEnd line]
  | word :: words =>
    if line.isEmpty then fillLines width word words
    else if line.length + 1 + word.length ≤ width then
      fillLines width (line ++ ' ' :: word) words
    else trimEnd line :: fillLines width word words

/-- The lines of a text at a width. -/
def wrap (width : Nat) (text : String) : List String :=
  (fillLines width [] ((text.splitOn " ").map String.toList)).map String.ofList

/-- A text with spaces behind it up to a width. -/
def padRight (width : Nat) (text : String) : String :=
  text ++ String.ofList (List.replicate (width - text.length) ' ')

end ResolverWiring.Text
