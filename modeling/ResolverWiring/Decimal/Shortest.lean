import ResolverWiring.Decimal.Binary64

/-!
# `ResolverWiring.Decimal.Shortest` — the shortest decimal that reads back

`shortest` gives the decimal with the fewest digits among those that are rounded to a number, and of
these the nearest. The candidates with a given count of digits are the two neighbours of the number on
that decimal grid: if any point of the grid is rounded to the number, one of these is.

How digits are laid out is a separate matter: `NumberStyle` holds the decisions of a notation.
-/

namespace ResolverWiring.Decimal

/-! ## Digits -/

/-- The decimal digits of a number, as characters. -/
def digitsOf (n : Nat) : List Char := Nat.toDigits 10 n

/-- A decimal `0.d₁d₂… · 10 ^ point`. -/
structure Digits where
  digits : List Char
  point : Int
deriving DecidableEq, Repr, Inhabited

/-- The decimals that are rounded to a number, in quarters of its last place: the lower end, the
number itself and the upper end; the ends belong to it if `closed`. -/
structure Interval where
  low : Nat
  mid : Nat
  high : Nat
  closed : Bool
deriving Repr

/-- The interval of a number. Below a power of two the numbers lie twice as close. -/
def Interval.of (mantissa : Nat) (exponent : Int) : Interval where
  low :=
    if mantissa = Nat.pow 2 (Binary64.precision - 1) && Binary64.minExponent < exponent then
      4 * mantissa - 1
    else 4 * mantissa - 2
  mid := 4 * mantissa
  high := 4 * mantissa + 2
  closed := mantissa % 2 = 0

/-- How many digits a positive fraction has in front of the point; negative for leading zeros. -/
def pointOf (num den : Nat) : Int :=
  if den ≤ num then (digitsOf (num / den)).length else 1 - (digitsOf (den / num)).length

/-- The nearest decimal with `count` digits, if it lies in the interval. The numbers of the interval
count units of `2 ^ exponent`. -/
def candidate? (interval : Interval) (exponent point : Int) (count : Nat) : Option Nat :=
  let (unitNum, unitDen) := scaleRatio 1 1 (-exponent)
  let step : Int := point - count
  let (stepNum, stepDen) := match step with
    | .ofNat k => (Nat.pow 10 k, 1)
    | .negSucc k => (1, Nat.pow 10 (k + 1))
  -- in units of `1 / (unitDen * stepDen)`
  let low := interval.low * unitNum * stepDen
  let mid := interval.mid * unitNum * stepDen
  let high := interval.high * unitNum * stepDen
  let grid := stepNum * unitDen
  let inside (d : Nat) : Bool :=
    if interval.closed then low ≤ d * grid && d * grid ≤ high
    else low < d * grid && d * grid < high
  let below := mid / grid
  match inside below, inside (below + 1) with
  | true, true =>
    let down := mid - below * grid
    let up := (below + 1) * grid - mid
    if down < up then some below
    else if up < down then some (below + 1)
    else if below % 2 = 0 then some below else some (below + 1)
  | true, false => some below
  | false, true => some (below + 1)
  | false, false => none

/-- No number needs more digits than this. -/
def longestShortest : Nat := 17

/-- Zeros at the end are dropped. -/
def dropTrailingZeros (digits : List Char) : List Char :=
  (digits.reverse.dropWhile (· == '0')).reverse

/-- The shortest decimal that is rounded to the positive number `mantissa · 2 ^ exponent`. -/
def shortest (mantissa : Nat) (exponent : Int) : Digits :=
  let interval := Interval.of mantissa exponent
  let (num, den) := scaleRatio interval.mid 1 (2 - exponent)
  let point := pointOf num den
  let found := (List.range longestShortest).findSome? fun k =>
    (candidate? interval (exponent - 2) point (k + 1)).map fun d => (k + 1, d)
  match found with
  | some (count, d) =>
    let digits := digitsOf d
    -- a carry into a new digit moves the point
    ⟨dropTrailingZeros digits, point + (digits.length - count : Int)⟩
  | none => ⟨['0'], 1⟩

/-! ## Notations -/

/-- The decisions of a notation for floating-point numbers. -/
structure NumberStyle where
  nan : String
  infinity : String
  /-- Numbers are written without an exponent if their point lies in this range. -/
  positionalAbove : Int
  positionalUpTo : Int
  /-- What a mantissa of one digit has between it and the exponent. -/
  singleDigitTail : String
  exponentDigits : Nat

/-- An exponent with its sign and at least as many digits as the style says. -/
def writeExponent (style : NumberStyle) (e : Int) : String :=
  let digits := digitsOf e.natAbs
  let zeros := List.replicate (style.exponentDigits - digits.length) '0'
  (if e < 0 then "e-" else "e+") ++ String.ofList (zeros ++ digits)

/-- A decimal in a style, without a sign. -/
def Digits.write (style : NumberStyle) (d : Digits) : String :=
  if style.positionalAbove < d.point && d.point ≤ style.positionalUpTo then
    match d.point with
    | .ofNat 0 => "0." ++ String.ofList d.digits
    | .negSucc k => "0." ++ String.ofList (List.replicate (k + 1) '0' ++ d.digits)
    | .ofNat k =>
      if k < d.digits.length then
        String.ofList (d.digits.take k) ++ "." ++ String.ofList (d.digits.drop k)
      else String.ofList (d.digits ++ List.replicate (k - d.digits.length) '0') ++ ".0"
  else
    let mantissa := match d.digits with
      | [digit] => String.ofList [digit] ++ style.singleDigitTail
      | digit :: others => String.ofList [digit] ++ "." ++ String.ofList others
      | [] => "0"
    mantissa ++ writeExponent style (d.point - 1)

/-- A number in a style. -/
def Binary64.write (style : NumberStyle) : Binary64 → String
  | .nan => style.nan
  | .infinity negative => (if negative then "-" else "") ++ style.infinity
  | .finite negative mantissa exponent =>
    (if negative then "-" else "") ++
      if mantissa = 0 then "0.0" else (shortest mantissa exponent).write style

/-- The plain notation: `1.5`, `100000.0`, `1e+16`, `1e-05`, `inf`, `nan`. -/
def NumberStyle.plain : NumberStyle where
  nan := "nan"
  infinity := "inf"
  positionalAbove := -4
  positionalUpTo := 16
  singleDigitTail := ""
  exponentDigits := 2

end ResolverWiring.Decimal
