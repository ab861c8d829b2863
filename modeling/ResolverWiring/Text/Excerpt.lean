import ResolverWiring.Text.Lines
import ResolverWiring.Text.Paragraph

/-!
# `ResolverWiring.Text.Excerpt` — a place in a text with the lines around it

An excerpt shows the line of a place with its number, the lines next to it, and a caret under the
column. A line that is too long is cut into pieces, and shown up to the piece behind the place.
-/

namespace ResolverWiring.Text

/-- A text with spaces in front of it up to a width. -/
def padLeft (width : Nat) (text : String) : String :=
  String.ofList (List.replicate (width - text.length) ' ') ++ text

/-- Lines with what stands in front of each, set flush right. -/
def marginLines (lines : List (String × String)) : List String :=
  let width := lines.foldl (fun width line => max width line.1.length) 0
  lines.map fun (margin, line) =>
    padLeft width margin ++ (if line.isEmpty then "" else " " ++ line)

/-- A longer line is cut. -/
def longestExcerptLine : Nat := 120

/-- A line is cut into pieces of this length. -/
def excerptPiece : Nat := 80

/-- The pieces of a line; `count` bounds their number. -/
def linePieces (count : Nat) (line : List Char) : List (List Char) :=
  (List.range count).filterMap fun i =>
    match (line.drop (i * excerptPiece)).take excerptPiece with
    | [] => none
    | piece => some piece

/-- The excerpt of a text around a place, under the name of the text. -/
def excerpt (name : String) (text : List Char) (place : Position) : String :=
  let lines := splitLines text
  let line (number : Nat) : Option (String × String) :=
    if number = 0 then none
    else lines[number - 1]?.map fun line => (toString number ++ " |", String.ofList line)
  let caret (column : Nat) : String × String := ("|", padLeft column "^")
  let current := lines[place.line - 1]?.getD []
  let shown :=
    if current.length ≤ longestExcerptLine then
      (line (place.line - 1)).toList ++ (line place.line).toList ++ caret place.column
        :: (line (place.line + 1)).toList
    else
      let pieces := (linePieces (current.length / excerptPiece + 1) current).map String.ofList
      let upTo := place.column / excerptPiece
      ((pieces.take (upTo + 1)).zipIdx.map fun (piece, index) =>
          (if index = 0 then toString place.line ++ " |" else "|", piece))
        ++ caret (place.column % excerptPiece)
        :: ((pieces.drop (upTo + 1)).take 1).map fun piece => ("|", piece)
  String.intercalate "\n"
    ((name ++ ":" ++ toString place.line ++ ":" ++ toString place.column) :: marginLines shown)

end ResolverWiring.Text
