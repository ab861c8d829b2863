import ResolverWiring.CommandLine.Options
import ResolverWiring.Text.Paragraph

/-!
# `ResolverWiring.CommandLine.Help` — help pages

A help page has a usage line, what the command is for, its options, and its commands if it has any.
Options and commands stand in two columns; all lines stay below 80 characters.
-/

namespace ResolverWiring.CommandLine

open Text

/-- The width of a help page. -/
def pageWidth : Nat := 78

/-- The options and the purpose of a command. -/
structure CommandSpec where
  name : String
  help : String
  options : List OptionSpec
deriving Repr, Inhabited

/-! ## Columns -/

/-- The greatest width of a left column. -/
def columnLimit : Nat := 30

/-- The width of the left column of rows, with the gap behind it. -/
def columnWidth (rows : List (String × String)) : Nat :=
  min (rows.foldl (fun width row => max width row.1.length) 0) columnLimit + 2

/-- The lines of one row: the left text and the right one, wrapped, from a column on. A left text that
is too wide has a line of its own. -/
def rowLines (column : Nat) (row : String × String) : List String :=
  let margin := padRight (column + 2) ""
  match wrap (pageWidth - column - 2) row.2 with
  | [] => ["  " ++ row.1]
  | first :: others =>
    (if row.1.length + 2 ≤ column then ["  " ++ padRight column row.1 ++ first]
      else ["  " ++ row.1, margin ++ first])
    ++ others.map (margin ++ ·)

/-- A titled list of rows. -/
def sectionLines (title : String) (rows : List (String × String)) : List String :=
  (title ++ ":") :: rows.flatMap (rowLines (columnWidth rows))

/-! ## Options and commands -/

/-- An option as it is given. -/
def OptionSpec.label (o : OptionSpec) : String :=
  let letter := match o.letter? with
    | some letter => "-" ++ String.singleton letter ++ ", "
    | none => ""
  let value := match o.value.placeholder? with
    | some word => " " ++ word
    | none => ""
  letter ++ o.flag ++ value

/-- The help of an option, with what holds if it is not given. -/
def OptionSpec.note (o : OptionSpec) : String :=
  o.help ++ (match o.default? with
    | some value => "  [default: " ++ value ++ "]"
    | none => "") ++ (if o.required then "  [required]" else "")

/-- The words of a sentence that a shortened text keeps: while they fit in `limit` characters together
with three dots. `used` is the width of the words that have been kept. -/
def keptWords (limit used : Nat) : List String → List String
  | [] => []
  | word :: words =>
    let used := used + (if used = 0 then 0 else 1) + word.length
    if used + 3 ≤ limit then word :: keptWords limit used words else []

/-- A sentence, shortened if it is wider than `limit`. -/
def shorten (limit : Nat) (sentence : String) : String :=
  if sentence.length ≤ limit then sentence
  else String.intercalate " " (keptWords limit 0 (sentence.splitOn " ")) ++ "..."

/-- The rows for commands. -/
def commandRows (commands : List CommandSpec) : List (String × String) :=
  let widest := commands.foldl (fun width c => max width c.name.length) 0
  commands.map fun c => (c.name, shorten (pageWidth - 6 - widest) c.help)

/-! ## Pages -/

/-- The usage line and the purpose of a command. -/
def headLines (usage help : String) : List String :=
  ["Usage: " ++ usage, ""] ++ (wrap (pageWidth - 2) help).map ("  " ++ ·)

/-- The options of a command. -/
def optionLines (options : List OptionSpec) : List String :=
  "" :: sectionLines "Options" (options.map fun o => (o.label, o.note))

/-- The text of lines. -/
def pageText (lines : List String) : String := String.join (lines.map (· ++ "\n"))

/-- The help page of a command. -/
def commandPage (program : String) (c : CommandSpec) : String :=
  pageText (headLines (program ++ " " ++ c.name ++ " [OPTIONS]") c.help ++ optionLines c.options)

/-- The usage line of a program with commands. -/
def CommandSpec.usage (program : CommandSpec) : String :=
  program.name ++ " [OPTIONS] COMMAND [ARGS]..."

/-- The help page of a program with commands. -/
def programPage (program : CommandSpec) (commands : List CommandSpec) : String :=
  pageText (headLines program.usage program.help
    ++ optionLines program.options ++ "" :: sectionLines "Commands" (commandRows commands))

end ResolverWiring.CommandLine
