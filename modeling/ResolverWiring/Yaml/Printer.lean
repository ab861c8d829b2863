import ResolverWiring.Yaml.Printer.Scalar
import ResolverWiring.Yaml.Printer.Tree
import ResolverWiring.Yaml.Value.DigitLimit
import ResolverWiring.Yaml.Value.Plain

/-!
# `ResolverWiring.Yaml.Printer` — writing values as YAML texts

`print` writes a value as a document in block style. The items of a sequence below a key are not
indented; a collection that is an item of a sequence starts on the line of its dash; empty collections
are written with brackets.

A key stays on its line if it is short and has no line end; any other key is written behind a question
mark, and its value behind a colon on a line of its own.
-/

namespace ResolverWiring.Yaml

open Decimal

namespace PrintTree

/-! ## Properties -/

/-- The name of an anchor. -/
def anchorName (anchor : AnchorNumber) : String := "id" ++ padded 3 anchor

/-- The short form of a tag of the language. -/
def tagWord (tag : CoreTag) : String := "!!" ++ tag.name

/-- The words in front of the content of a node: its anchor, and its tag where the content does not
show it. -/
def properties : PrintTree → List String
  | .scalar anchor? tag _ => anchorWord anchor? ++ if tag = .binary then [tagWord tag] else []
  | .mapping anchor? isSet _ => anchorWord anchor? ++ if isSet then [tagWord .set] else []
  | _ => []
where
  /-- The word for an anchor. -/
  anchorWord (anchor? : Option AnchorNumber) : List String :=
    anchor?.toList.map fun anchor => "&" ++ anchorName anchor

/-- Those words, each with a space behind it. -/
def front (tree : PrintTree) : List Char := tree.properties.flatMap fun word => word.toList ++ [' ']

/-! ## Keys -/

/-- A key that is as long as this does not stay on its line. -/
def keyLimit : Nat := 128

/-- Whether a key stays on its line. -/
def isSimpleKey : PrintTree → Bool
  | .alias anchor => (anchorName anchor).length < keyLimit
  | .scalar anchor? tag text =>
    let anchorLength := anchor?.elim 0 fun anchor => (anchorName anchor).length
    anchorLength + (tagWord tag).length + text.length < keyLimit && !text.isEmpty && isOneLine text
  | .sequence items => items.isEmpty
  | .mapping _ _ entries => entries.isEmpty

/-! ## Nodes -/

/-- A step of indentation. -/
def indentStep : Nat := 2

/-- A node that is written on one line, or by the writer of scalars, from a column on. Collections that
are not empty have no such form. -/
def writeInline (layout : Layout) (column : Nat) (tree : PrintTree) : List Char :=
  match tree with
  | .alias anchor => '*' :: (anchorName anchor).toList
  | .scalar _ tag text => tree.front ++ writeScalar layout (column + tree.front.length) tag text
  | .sequence _ => ['[', ']']
  | .mapping _ _ _ => tree.front ++ ['{', '}']

/-- Where a node stands: behind a dash or a lone mark, or behind a key on the same line. -/
inductive Position where
  | behindMark
  | behindKey
deriving DecidableEq, Repr, Inhabited

/-- Texts, each on a line of its own with an indentation; the first one where its line starts. -/
def stack (indent : Nat) (texts : List (List Char)) : List Char :=
  List.intercalate (newLine indent) texts

mutual

/-- A node behind a mark or key that ends at a column, inside a collection with an indentation. -/
def writeBehind (position : Position) (indent column : Nat) : PrintTree → List Char
  | .alias anchor => ' ' :: writeInline ⟨indent + indentStep, true⟩ (column + 1) (.alias anchor)
  | .scalar anchor? tag text =>
    ' ' :: writeInline ⟨indent + indentStep, true⟩ (column + 1) (.scalar anchor? tag text)
  | .sequence items =>
    if items.isEmpty then ' ' :: writeInline ⟨indent + indentStep, true⟩ (column + 1) (.sequence [])
    else match position with
      | .behindMark => ' ' :: stack (indent + indentStep) (writeItems (indent + indentStep) items)
      | .behindKey => newLine indent ++ stack indent (writeItems indent items)
  | .mapping anchor? isSet entries =>
    let bare := PrintTree.mapping anchor? isSet []
    let inner := indent + indentStep
    if entries.isEmpty then ' ' :: writeInline ⟨inner, true⟩ (column + 1) bare
    else if position = .behindMark && bare.properties.isEmpty then
      ' ' :: stack inner (writeEntries inner entries)
    else
      bare.properties.flatMap (fun word => ' ' :: word.toList) ++ newLine inner
        ++ stack inner (writeEntries inner entries)

/-- The items of a sequence. -/
def writeItems (indent : Nat) : List PrintTree → List (List Char)
  | [] => []
  | item :: others =>
    ('-' :: writeBehind .behindMark indent (indent + 1) item) :: writeItems indent others

/-- The entries of a mapping. -/
def writeEntries (indent : Nat) : List (PrintTree × PrintTree) → List (List Char)
  | [] => []
  | (key, value) :: others =>
    (if key.isSimpleKey then
      let name := writeInline ⟨indent + indentStep, false⟩ indent key
      name ++ ':' :: writeBehind .behindKey indent (indent + name.length + 1) value
    else
      '?' :: (writeBehind .behindMark indent (indent + 1) key
        ++ newLine indent ++ ':' :: writeBehind .behindMark indent (indent + 1) value))
      :: writeEntries indent others

end

/-! ## Documents -/

/-- A document. A plain scalar at the root is followed by the mark of the end of the document. -/
def writeDocument (tree : PrintTree) : List Char :=
  let root := writeInline ⟨indentStep, true⟩ 0 tree
  match tree with
  | .alias _ => root ++ ['\n']
  | .scalar _ tag text =>
    root ++ '\n' :: if styleOf tag text = .plain then "...\n".toList else []
  | .sequence items => (if items.isEmpty then root else stack 0 (writeItems 0 items)) ++ ['\n']
  | .mapping anchor? isSet entries =>
    let words := (PrintTree.mapping anchor? isSet []).properties
    let lead := if words.isEmpty then [] else (String.intercalate " " words).toList ++ ['\n']
    (if entries.isEmpty then root else lead ++ stack 0 (writeEntries 0 entries)) ++ ['\n']

end PrintTree

/-- The text of a value, which must not hold integers that are too long. -/
def print (value : Value) : Except TooManyDigits String :=
  let plain := value.plain
  if value.keysFit && plain.fits then .ok (String.ofList (PrintTree.ofValue plain).writeDocument)
  else .error ⟨none⟩

end ResolverWiring.Yaml
