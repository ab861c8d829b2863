import ResolverWiring.Text.Base64
import ResolverWiring.Yaml.Tag
import ResolverWiring.Yaml.Value

/-!
# `ResolverWiring.Yaml.Printer.Tree` — values as trees to be written

A tree to be written has scalars with their texts, and instead of shared values anchors and aliases: a
date, timestamp or set that occurs again is written once, with an anchor, and then by its name. The
anchors are numbered in the order in which values are found to be shared.

## Contents

* `PrintTree`;
* `Sharing`, which finds the shared values of a value;
* `PrintTree.ofValue`.
-/

namespace ResolverWiring.Yaml

open Decimal Text

/-- The number of an anchor. -/
abbrev AnchorNumber := Nat

/-- A tree to be written. -/
inductive PrintTree where
  | alias (anchor : AnchorNumber)
  | scalar (anchor? : Option AnchorNumber) (tag : CoreTag) (text : List Char)
  | sequence (items : List PrintTree)
  | mapping (anchor? : Option AnchorNumber) (isSet : Bool) (entries : List (PrintTree × PrintTree))
deriving Repr, Inhabited

/-! ## Shared values -/

/-- The origins met so far, and those met again, in the order in which this happened. -/
structure Sharing where
  met : List Nat
  shared : List Nat
deriving DecidableEq, Repr, Inhabited

namespace Sharing

/-- Meets an origin, and says whether for the first time. -/
def meet (s : Sharing) (origin : Nat) : Bool × Sharing :=
  if !s.met.contains origin then (true, { s with met := origin :: s.met })
  else if s.shared.contains origin then (false, s)
  else (false, { s with shared := s.shared ++ [origin] })

/-- Meets the origin of a value, if it has one. -/
def meetOrigin (s : Sharing) : Origin → Bool × Sharing
  | none => (true, s)
  | some origin => s.meet origin

mutual

/-- Meets the origins in a value. -/
def ofValue (s : Sharing) : Value → Sharing
  | .date origin _ => (s.meetOrigin origin).2
  | .timestamp origin _ => (s.meetOrigin origin).2
  | .set origin members =>
    let (isFirst, s) := s.meetOrigin origin
    if isFirst then ofItems s members else s
  | .list items => ofItems s items
  | .tuple items => ofItems s items
  | .map entries => ofEntries s entries
  | _ => s

/-- Meets the origins in items. -/
def ofItems (s : Sharing) : List Value → Sharing
  | [] => s
  | item :: others => ofItems (ofValue s item) others

/-- Meets the origins in entries. -/
def ofEntries (s : Sharing) : List (Value × Value) → Sharing
  | [] => s
  | (key, value) :: others => ofEntries (ofValue (ofValue s key) value) others

end

end Sharing

/-! ## Trees -/

/-- The notation of floating-point numbers: a mantissa always has a point. -/
def floatStyle : NumberStyle :=
  { NumberStyle.plain with nan := ".nan", infinity := ".inf", singleDigitTail := ".0" }

namespace PrintTree

/-- The anchors that have been written so far. -/
abbrev Writing := StateM (List AnchorNumber)

/-- The number of the anchor of an origin, if its value is shared. -/
def anchorOf? (shared : List Nat) (origin : Origin) : Option AnchorNumber :=
  (origin.bind fun o => shared.idxOf? o).map (· + 1)

/-- The tree of a value with an origin: an alias if its anchor has been written. -/
def atOrigin (shared : List Nat) (origin : Origin)
    (make : Option AnchorNumber → Writing PrintTree) : Writing PrintTree := do
  match anchorOf? shared origin with
  | none => make none
  | some anchor =>
    if (← get).contains anchor then return .alias anchor
    else
      modify (anchor :: ·)
      make (some anchor)

/-- A scalar that is not shared. -/
def ofText (tag : CoreTag) (text : String) : PrintTree := .scalar none tag text.toList

mutual

/-- The tree of a value. -/
def build (shared : List Nat) : Value → Writing PrintTree
  | .null => return ofText .null "null"
  | .bool true => return ofText .bool "true"
  | .bool false => return ofText .bool "false"
  | .int i => return ofText .int (toString i)
  | .float _ x => return ofText .float (x.write floatStyle)
  | .string text => return ofText .string text
  | .bytes bytes => return .scalar none .binary (Base64.encodeLines bytes)
  | .date origin d =>
    atOrigin shared origin fun anchor? => return .scalar anchor? .timestamp d.write.toList
  | .timestamp origin t =>
    atOrigin shared origin fun anchor? => return .scalar anchor? .timestamp t.write.toList
  | .list items => return .sequence (← buildItems shared items)
  | .tuple items => return .sequence (← buildItems shared items)
  | .set origin members =>
    atOrigin shared origin fun anchor? => return .mapping anchor? true (← buildMembers shared members)
  | .map entries => return .mapping none false (← buildEntries shared entries)
  -- a value that holds itself is refused before it is written
  | .enclosing _ _ => return ofText .null "null"

/-- The trees of items. -/
def buildItems (shared : List Nat) : List Value → Writing (List PrintTree)
  | [] => return []
  | item :: others => return (← build shared item) :: (← buildItems shared others)

/-- The entries of a set: each member is a key without a value. -/
def buildMembers (shared : List Nat) : List Value → Writing (List (PrintTree × PrintTree))
  | [] => return []
  | member :: others => do
    let key ← build shared member
    return (key, ofText .null "null") :: (← buildMembers shared others)

/-- The entries of a mapping. -/
def buildEntries (shared : List Nat) :
    List (Value × Value) → Writing (List (PrintTree × PrintTree))
  | [] => return []
  | (key, value) :: others => do
    let key ← build shared key
    let value ← build shared value
    return (key, value) :: (← buildEntries shared others)

end

/-- The tree of a whole value. -/
def ofValue (value : Value) : PrintTree :=
  ((build (Sharing.ofValue ⟨[], []⟩ value).shared value).run []).1

end PrintTree

end ResolverWiring.Yaml
