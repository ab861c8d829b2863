import ResolverWiring.Decimal.DigitLimit
import ResolverWiring.Yaml.Value

/-!
# `ResolverWiring.Yaml.Value.DigitLimit` — values that can be written

A value with an integer that is too long cannot be written. Integers in keys count before equal keys
become one (`Value.keysFit`), others in what is written in the end (`Value.fits`). A value that holds
itself is never done with being made plain (`Value.isEndless`).
-/

namespace ResolverWiring.Yaml.Value

open Decimal

/-- Whether an integer is short enough to be written. -/
def integerFits (i : Int) : Bool := (writeInteger i).isOk

mutual

/-- Whether every integer in a value is short enough to be written. -/
def fits : Value → Bool
  | int i => integerFits i
  | list items => itemsFit items
  | tuple items => itemsFit items
  | set _ members => itemsFit members
  | map entries => entriesFit entries
  | _ => true

/-- Whether every integer in items is short enough to be written. -/
def itemsFit : List Value → Bool
  | [] => true
  | item :: others => fits item && itemsFit others

/-- Whether every integer in entries is short enough to be written. -/
def entriesFit : List (Value × Value) → Bool
  | [] => true
  | (key, value) :: others => fits key && fits value && entriesFit others

end

mutual

/-- Whether every integer in a key of a mapping is short enough to be written. -/
def keysFit : Value → Bool
  | list items => itemKeysFit items
  | tuple items => itemKeysFit items
  | map entries => entryKeysFit entries
  | _ => true

/-- Whether every integer in a key of a mapping among items is short enough to be written. -/
def itemKeysFit : List Value → Bool
  | [] => true
  | item :: others => keysFit item && itemKeysFit others

/-- Whether every integer in a key of entries, or of a mapping in them, is short enough. -/
def entryKeysFit : List (Value × Value) → Bool
  | [] => true
  | (key, value) :: others => fits key && keysFit value && entryKeysFit others

end

mutual

/-- Whether making a value plain has no end: some collection stands in itself, and no key in front of
it is too long. -/
def isEndless : Value → Bool
  | enclosing _ _ => true
  | list items => itemsAreEndless items
  | tuple items => itemsAreEndless items
  | map entries => entriesAreEndless entries
  | _ => false

/-- Whether making items plain has no end. -/
def itemsAreEndless : List Value → Bool
  | [] => false
  | item :: others => isEndless item || (keysFit item && itemsAreEndless others)

/-- Whether making entries plain has no end. -/
def entriesAreEndless : List (Value × Value) → Bool
  | [] => false
  | (key, value) :: others =>
    fits key && (isEndless value || (keysFit value && entriesAreEndless others))

end

end ResolverWiring.Yaml.Value
