/-!
# `ResolverWiring.Decimal.Binary64` — binary floating-point numbers of 64 bits

A number is kept as sign, mantissa and exponent, so it can be compared and computed with exactly; only
`ofRatio` rounds. `ofRatio` gives the number nearest to a fraction, and of two equally near ones the
one with the even mantissa.
-/

namespace ResolverWiring.Decimal

/-- A floating-point number; a finite one is `± mantissa · 2 ^ exponent`. -/
inductive Binary64 where
  | nan
  | infinity (negative : Bool)
  | finite (negative : Bool) (mantissa : Nat) (exponent : Int)
deriving DecidableEq, Repr, Inhabited

/-- A quotient rounded to the nearest integer, a half to the even one. -/
def roundDiv (num den : Nat) : Nat :=
  let floor := num / den
  let twice := 2 * (num % den)
  if twice < den then floor
  else if den < twice then floor + 1
  else if floor % 2 = 0 then floor else floor + 1

/-- The fraction `num / den · 2 ^ -e` as numerator and denominator. -/
def scaleRatio (num den : Nat) (e : Int) : Nat × Nat :=
  match e with
  | .ofNat k => (num, den * Nat.pow 2 k)
  | .negSucc k => (num * Nat.pow 2 (k + 1), den)

namespace Binary64

/-- A mantissa has at most this many bits. -/
def precision : Nat := 53

/-- The exponent of the smallest numbers. -/
def minExponent : Int := -1074

/-- The exponent of the largest finite numbers. -/
def maxExponent : Int := 971

/-- Zero. -/
def zero (negative : Bool) : Binary64 := .finite negative 0 minExponent

/-- The number nearest to a fraction, with the sign given. -/
def ofRatio (negative : Bool) (num den : Nat) : Binary64 :=
  if num = 0 then zero negative
  else
    let guess : Int := (num.log2 : Int) - (den.log2 : Int) - (precision - 1 : Nat)
    let (n, d) := scaleRatio num den guess
    let exponent := max minExponent (if n / d < Nat.pow 2 (precision - 1) then guess - 1 else guess)
    let (n, d) := scaleRatio num den exponent
    let mantissa := roundDiv n d
    let (mantissa, exponent) :=
      if mantissa = Nat.pow 2 precision then (Nat.pow 2 (precision - 1), exponent + 1) else (mantissa, exponent)
    if maxExponent < exponent then .infinity negative else .finite negative mantissa exponent

/-- Decimal exponents beyond these give infinity and zero whatever the digits before the point. -/
def decimalRange : Int × Int := (-400, 400)

/-- The number nearest to `digits · 10 ^ exponent`, with the sign given. -/
def ofDecimal (negative : Bool) (digits : Nat) (exponent : Int) : Binary64 :=
  let magnitude : Int := (Nat.toDigits 10 digits).length + exponent
  if digits = 0 || magnitude < decimalRange.1 then zero negative
  else if decimalRange.2 < magnitude then .infinity negative
  else match exponent with
    | .ofNat k => ofRatio negative (digits * Nat.pow 10 k) 1
    | .negSucc k => ofRatio negative digits (Nat.pow 10 (k + 1))

/-- A finite number as a signed numerator over a positive denominator. -/
def toRatio (negative : Bool) (mantissa : Nat) (exponent : Int) : Int × Nat :=
  let (n, d) := scaleRatio mantissa 1 (-exponent)
  (if negative then -(n : Int) else n, d)

/-- The number nearest to a signed fraction; zero takes the sign given. -/
def ofSignedRatio (zeroNegative : Bool) (num : Int) (den : Nat) : Binary64 :=
  if num = 0 then zero zeroNegative else ofRatio (num < 0) num.natAbs den

/-- The sum. -/
def add : Binary64 → Binary64 → Binary64
  | nan, _ => nan
  | _, nan => nan
  | infinity s, infinity t => if s = t then infinity s else nan
  | infinity s, _ => infinity s
  | _, infinity t => infinity t
  | finite s m e, finite t n f =>
    let (a, b) := toRatio s m e
    let (c, d) := toRatio t n f
    ofSignedRatio (s && t) (a * d + c * b) (b * d)

/-- The product. -/
def mul : Binary64 → Binary64 → Binary64
  | nan, _ => nan
  | _, nan => nan
  | infinity s, infinity t => infinity (s != t)
  | infinity s, finite t n _ => if n = 0 then nan else infinity (s != t)
  | finite s m _, infinity t => if m = 0 then nan else infinity (s != t)
  | finite s m e, finite t n f =>
    let (a, b) := toRatio s m e
    let (c, d) := toRatio t n f
    ofSignedRatio (s != t) (a * c) (b * d)

/-- The number with the other sign. -/
def neg : Binary64 → Binary64
  | nan => nan
  | infinity s => infinity (!s)
  | finite s m e => finite (!s) m e

/-- The number nearest to an integer. -/
def ofInt (i : Int) : Binary64 := ofSignedRatio false i 1

/-- Whether the number is exactly this integer. -/
def isInt (x : Binary64) (i : Int) : Bool :=
  match x with
  | finite s m e =>
    let (a, b) := toRatio s m e
    a == i * b
  | _ => false

/-- Equality of numbers: zeros are equal whatever their sign, and `nan` equals nothing. -/
def sameNumber : Binary64 → Binary64 → Bool
  | infinity s, infinity t => s == t
  | finite s m e, finite t n f =>
    let (a, b) := toRatio s m e
    let (c, d) := toRatio t n f
    a * d == c * b
  | _, _ => false

end Binary64

end ResolverWiring.Decimal
