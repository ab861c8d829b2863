/-!
# `ResolverWiring.Yaml.Mark` — places in a YAML text

A mark is a place in a text: how many characters stand before it, and its line and column. Messages
show a mark together with a part of its line (`Mark.describe`).

Five characters end a line. A byte order mark takes no column.
-/

namespace ResolverWiring.Yaml

/-- The characters that end a line. -/
def isBreak (c : Char) : Bool :=
  c == '\n' || c == '\r' || c == '\u0085' || c == '\u2028' || c == '\u2029'

/-- The space and the tab. -/
def isBlank (c : Char) : Bool := c == ' ' || c == '\t'

/-- Whether a text is at its end or in front of a line end or a space. -/
def atSpaceOrEnd (cs : List Char) : Bool := cs.head?.all fun c => c == ' ' || isBreak c

/-- Whether a text is at its end or in front of a line end, a space or a tab. -/
def atBlankOrEnd (cs : List Char) : Bool := cs.head?.all fun c => isBlank c || isBreak c

/-- A place in a text; all three count from zero. -/
structure Mark where
  index : Nat
  line : Nat
  column : Nat
deriving DecidableEq, Repr, Inhabited

namespace Mark

/-- The start of a text. -/
def start : Mark := ⟨0, 0, 0⟩

/-- The place behind the character `c`, which `next?` follows. A carriage return in front of a line
feed does not end the line. -/
def after (m : Mark) (c : Char) (next? : Option Char) : Mark :=
  if isBreak c && !(c == '\r' && next? == some '\n') then ⟨m.index + 1, m.line + 1, 0⟩
  else if c == '\ufeff' then ⟨m.index + 1, m.line, m.column⟩
  else ⟨m.index + 1, m.line, m.column + 1⟩

/-- The place `count` characters further, when `cs` is the text from the mark on. -/
def advance (m : Mark) : List Char → Nat → Mark
  | _, 0 => m
  | [], _ => m
  | c :: cs, count + 1 => advance (m.after c cs.head?) cs count

/-! ## Showing a place -/

/-- At most this many characters of a line are shown on either side of a place. -/
def snippetReach : Nat := 36

/-- This many of them give way to the sign that the line goes on. -/
def snippetCut : Nat := 5

/-- What is shown of one side of a line, the characters next to the place first, and whether the line
goes on behind it. -/
def oneSide (cs : List Char) : List Char × Bool :=
  let line := cs.takeWhile (!isBreak ·)
  if snippetReach < line.length then (line.take (snippetReach + 1 - snippetCut), true)
  else (line, false)

/-- Spaces in front of a shown line. -/
def snippetIndent : Nat := 4

/-- A part of the line of a place, and under it a sign below the place. -/
def snippet (text : List Char) (m : Mark) : String :=
  let (before, cutBefore) := oneSide (text.take m.index).reverse
  let (after, cutAfter) := oneSide (text.drop m.index)
  let head := if cutBefore then " ... " else ""
  let tail := if cutAfter then " ... " else ""
  let spaces (n : Nat) : String := String.ofList (List.replicate n ' ')
  spaces snippetIndent ++ head ++ String.ofList (before.reverse ++ after) ++ tail ++ "\n"
    ++ spaces (snippetIndent + before.length + head.length) ++ "^"

/-- The name that messages give to the text. -/
def textName : String := "<unicode string>"

/-- A place as messages show it. -/
def describe (text : List Char) (m : Mark) : String :=
  "  in \"" ++ textName ++ "\", line " ++ toString (m.line + 1) ++ ", column "
    ++ toString (m.column + 1) ++ ":\n" ++ snippet text m

end Mark

end ResolverWiring.Yaml
