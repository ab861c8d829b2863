import ResolverWiring.Decimal.Binary64

/-!
# `ResolverWiring.Decimal.Reading` — reading numbers

Integers in a base, and floating-point numbers in decimal notation. Both readers take the whole text
or refuse it.
-/

namespace ResolverWiring.Decimal

/-! ## Integers -/

/-- The value of a digit or letter, as digits of bases up to thirty-six have it. -/
def digitValue? (c : Char) : Option Nat :=
  if '0' ≤ c && c ≤ '9' then some (c.toNat - '0'.toNat)
  else if 'a' ≤ c && c ≤ 'z' then some (c.toNat - 'a'.toNat + 10)
  else if 'A' ≤ c && c ≤ 'Z' then some (c.toNat - 'A'.toNat + 10)
  else none

/-- The number that digits denote in a base, `none` if there are no digits or others than of the
base. -/
def readNat? (base : Nat) (digits : List Char) : Option Nat :=
  if digits.isEmpty then none
  else digits.foldlM
    (fun n c => ((digitValue? c).filter (· < base)).map (base * n + ·)) 0

/-- A sign at the front of a text, and the rest. -/
def splitSign : List Char → Bool × List Char
  | '-' :: cs => (true, cs)
  | '+' :: cs => (false, cs)
  | cs => (false, cs)

/-! ## Floating-point numbers -/

/-- The exponent behind a mantissa, its letter included; without one it is zero. -/
def readExponent? : List Char → Option Int
  | [] => some 0
  | e :: cs =>
    if e == 'e' || e == 'E' then
      let (negative, digits) := splitSign cs
      (readNat? 10 digits).map fun n => if negative then -(n : Int) else n
    else none

/-- A decimal number without a sign: digits with a point somewhere, and perhaps an exponent. -/
def readUnsigned? (negative : Bool) (cs : List Char) : Option Binary64 :=
  let whole := cs.takeWhile Char.isDigit
  let rest := cs.dropWhile Char.isDigit
  let (fraction, rest) := match rest with
    | '.' :: r => (r.takeWhile Char.isDigit, r.dropWhile Char.isDigit)
    | r => ([], r)
  match readNat? 10 (whole ++ fraction), readExponent? rest with
  | some digits, some exponent => some (.ofDecimal negative digits (exponent - fraction.length))
  | _, _ => none

/-- The number that a text denotes; infinities and the value that is no number have names. -/
def readFloat? (cs : List Char) : Option Binary64 :=
  let (negative, rest) := splitSign cs
  match String.ofList (rest.map Char.toLower) with
  | "inf" => some (.infinity negative)
  | "infinity" => some (.infinity negative)
  | "nan" => some .nan
  | _ => readUnsigned? negative rest

end ResolverWiring.Decimal
