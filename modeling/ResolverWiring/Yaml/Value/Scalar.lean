import ResolverWiring.Decimal.Reading
import ResolverWiring.Text.Base64
import ResolverWiring.Text.Digit
import ResolverWiring.Text.LowerCase
import ResolverWiring.Yaml.Node
import ResolverWiring.Yaml.Tag.Resolution
import ResolverWiring.Yaml.Value

/-!
# `ResolverWiring.Yaml.Value.Scalar` — values of scalars

One reader for each type of scalar. A reader is total on all texts, since a tag can ask for a type that
the text does not have the form of.
-/

namespace ResolverWiring.Yaml

open Decimal Text

/-! ## Numbers -/

/-- The pieces of a text between colons. -/
def splitColons : List Char → List (List Char)
  | [] => [[]]
  | ':' :: cs => [] :: splitColons cs
  | c :: cs =>
    match splitColons cs with
    | piece :: others => (c :: piece) :: others
    | [] => [[c]]

/-- The letter behind the zero that may stand in front of the digits of a base. -/
def baseLetter? : Nat → Option Char
  | 2 => some 'b'
  | 8 => some 'o'
  | 16 => some 'x'
  | _ => none

/-- The digits of a number in a base, without the letter of the base in front of them. -/
def dropBaseLetter (base : Nat) (cs : List Char) : List Char :=
  match cs with
  | '0' :: letter :: rest => if some letter.toLower == baseLetter? base then rest else cs
  | _ => cs

/-- The integer that a text denotes in a base; it may have a sign, and white space around it. More
digits in base ten than can be read are an error of their own, whatever follows them. -/
def readInteger (base : Nat) (text : List Char) : Except ScalarError Int :=
  let (negative, rest) := splitSign (numberText text)
  let count := (rest.takeWhile Char.isDigit).length
  if base = 10 && maxDigits < count then .error (.tooManyDigits ⟨some count⟩)
  else match readNat? base (dropBaseLetter base rest) with
    | none => .error (.notInteger base text)
    | some n => .ok (if negative then -(n : Int) else n)

/-- The number whose digits in base sixty these are, the last one first. -/
def sexagesimal : List Int → Int
  | [] => 0
  | digit :: others => digit + 60 * sexagesimal others

/-- The integer that a scalar denotes. -/
def readIntScalar (text : List Char) : Except ScalarError Int :=
  let cs := text.filter (· != '_')
  if cs.isEmpty then .error .noDigits
  else
    let (negative, digits) := splitSign cs
    let magnitude : Except ScalarError Int :=
      match digits with
      | [] => .error .noDigits
      | ['0'] => .ok 0
      | '0' :: 'b' :: rest => readInteger 2 rest
      | '0' :: 'x' :: rest => readInteger 16 rest
      | '0' :: _ => readInteger 8 digits
      | _ =>
        if digits.contains ':' then
          ((splitColons digits).mapM (readInteger 10)).map fun parts => sexagesimal parts.reverse
        else readInteger 10 digits
    magnitude.map fun n => if negative then -n else n

/-- The floating-point number that a text denotes; white space may stand around it. -/
def readFloatPart (text : List Char) : Except ScalarError Binary64 :=
  match readFloat? (numberText text) with
  | some x => .ok x
  | none => .error (.notFloat text)

/-- The sum of digits in base sixty, the last one first, each rounded at its place. A place that no
floating-point number reaches is an error. -/
def sexagesimalFloat (place : Int) (sum : Binary64) : List Binary64 → Except ScalarError Binary64
  | [] => .ok sum
  | digit :: others =>
    match Binary64.ofInt place with
    | .infinity _ => .error .placeTooLarge
    | factor => sexagesimalFloat (60 * place) (sum.add (digit.mul factor)) others

/-- Whether the text of a floating-point number has a minus sign, and what follows its sign; underlines
do not count, and letters are small. -/
def floatDigits (text : List Char) : Bool × List Char :=
  splitSign (lowerCase (text.filter (· != '_')))

/-- The word for the value that is no number. -/
def nanWord : List Char := ".nan".toList

/-- The floating-point number that a scalar denotes. -/
def readFloatScalar (text : List Char) : Except ScalarError Binary64 :=
  let (negative, digits) := floatDigits text
  if text.all (· == '_') then .error .noDigits
  else
    let magnitude : Except ScalarError Binary64 :=
      if digits == ".inf".toList then .ok (.infinity false)
      else if digits == nanWord then .ok .nan
      else if digits.contains ':' then do
        let parts ← (splitColons digits).mapM readFloatPart
        sexagesimalFloat 1 (.zero false) parts.reverse
      else readFloatPart digits
    magnitude.map fun x => if negative then x.neg else x

/-- Where a floating-point number comes from that a node denotes. The word for the value that is no
number always denotes the same one. -/
def floatOrigin (number : NodeNumber) (text : List Char) : Origin :=
  if (floatDigits text).2 == nanWord then none else some number

/-! ## Other scalars -/

/-- The truth value that a scalar denotes. -/
def readBoolScalar (text : List Char) : Except ScalarError Bool :=
  let word := lowerCase text
  if ["yes".toList, "true".toList, "on".toList].contains word then .ok true
  else if ["no".toList, "false".toList, "off".toList].contains word then .ok false
  else .error (.notBoolean word)

/-- The bytes that a scalar denotes, which holds nothing but ASCII. -/
def readBinaryScalar (text : List Char) : Except Problem (List UInt8) :=
  let isAscii (c : Char) : Bool := c.toNat < 0x80
  match text.dropWhile isAscii with
  | c :: rest =>
    let count := (rest.takeWhile fun c => !isAscii c).length + 1
    .error (.notAscii c (text.takeWhile isAscii).length count)
  | [] => (Base64.decode text).mapError .notBase64

/-- Whether nodes with this tag of the language are collections. -/
def CoreTag.isCollection : CoreTag → Bool
  | .orderedMap => true
  | .pairs => true
  | .set => true
  | .sequence => true
  | .mapping => true
  | _ => false

/-- Whether nodes with this tag of the language are scalars, with a value of their own. -/
def CoreTag.isScalar : CoreTag → Bool
  | .null => true
  | .bool => true
  | .int => true
  | .float => true
  | .binary => true
  | .timestamp => true
  | .string => true
  | _ => false

/-- The value of a scalar with a tag of the language, if this is the text of the node with this number
at this place; texts stand for themselves. -/
def scalarValue (tag : CoreTag) (number : NodeNumber) (text : List Char) (mark : Mark) :
    Except LoadError Value :=
  match tag with
  | .null => .ok .null
  | .bool => ((readBoolScalar text).map .bool).mapError .scalar
  | .int => ((readIntScalar text).map .int).mapError .scalar
  | .float => ((readFloatScalar text).map (.float (floatOrigin number text))).mapError .scalar
  | .binary => ((readBinaryScalar text).map .bytes).mapError fun p => .malformed (.plain p mark)
  | .timestamp =>
    let value : Date ⊕ Timestamp → Value
      | .inl d => .date (some number) d
      | .inr t => .timestamp (some number) t
    ((readTimestamp (dropFinalFeed text)).map value).mapError .scalar
  | _ => .ok (.string (String.ofList text))

end ResolverWiring.Yaml
