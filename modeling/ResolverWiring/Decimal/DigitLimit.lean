/-!
# `ResolverWiring.Decimal.DigitLimit` — how long integers may be

In base ten an integer is neither read nor written that has more than `maxDigits` digits. In bases that
are powers of two integers of any length are read.
-/

namespace ResolverWiring.Decimal

/-- Integers with more digits than this are refused. -/
def maxDigits : Nat := 4300

/-- An integer with too many digits, and how many it has if they were counted. -/
structure TooManyDigits where
  count? : Option Nat
deriving DecidableEq, Repr, Inhabited

/-- The wording of the error. -/
def TooManyDigits.message (e : TooManyDigits) : String :=
  "Exceeds the limit (" ++ toString maxDigits ++ " digits) for integer string conversion"
    ++ (e.count?.map fun count => ": value has " ++ toString count ++ " digits").getD ""
    ++ "; use sys.set_int_max_str_digits() to increase the limit"

/-- The text of an integer. -/
def writeInteger (i : Int) : Except TooManyDigits String :=
  if maxDigits < (toString i.natAbs).length then .error ⟨none⟩ else .ok (toString i)

end ResolverWiring.Decimal
