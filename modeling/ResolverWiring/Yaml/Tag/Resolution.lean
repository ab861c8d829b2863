import ResolverWiring.Yaml.Tag

/-!
# `ResolverWiring.Yaml.Tag.Resolution` — what a scalar without a tag is

A plain scalar is what its text looks like: `resolve` tries the forms of the language in a fixed order,
and a text that has none of them is a string. The same function decides which strings have to be
quoted when they are written.

## Contents

* readers of parts of a form, each with the text behind it;
* the words and forms of each type: `boolWords`, `nullWords`, `isFloatForm`, `isIntForm`, `isTimestampForm`;
* `resolve`.
-/

namespace ResolverWiring.Yaml

/-! ## Parts of forms -/

/-- Zero to nine. -/
def isDecimal (c : Char) : Bool := '0' ≤ c && c ≤ '9'

/-- The text behind a sign, if there is one. -/
def skipSign (cs : List Char) : List Char :=
  match cs with
  | '+' :: rest => rest
  | '-' :: rest => rest
  | _ => cs

/-- The text behind a sign that has to be there. -/
def skipSign? : List Char → Option (List Char)
  | '+' :: cs => some cs
  | '-' :: cs => some cs
  | _ => none

/-- The text behind one character that `p` holds for, and any number that `q` holds for. -/
def skipRun? (p q : Char → Bool) : List Char → Option (List Char)
  | c :: cs => if p c then some (cs.dropWhile q) else none
  | [] => none

/-- Digits and the underscores that may stand between them. -/
def isDigitOrGap (c : Char) : Bool := isDecimal c || c == '_'

/-- Whether the whole text is an exponent, or empty. -/
def isExponentOrEmpty : List Char → Bool
  | [] => true
  | e :: cs =>
    (e == 'e' || e == 'E')
      && ((skipSign? cs).bind (skipRun? isDecimal isDecimal)).elim false (·.isEmpty)

/-- The text behind the parts of a number in base sixty, each a colon and one or two digits of which
the first of two is below six; at least one is needed. Every way to end the last part is tried by
`accept`. -/
def sexagesimalEnds (accept : List Char → Bool) : List Char → Bool
  | ':' :: a :: b :: cs =>
    ('0' ≤ a && a ≤ '5' && isDecimal b && (accept cs || sexagesimalEnds accept cs))
      || (isDecimal a && (accept (b :: cs) || sexagesimalEnds accept (b :: cs)))
  | [':', a] => isDecimal a && accept []
  | _ => false

/-! ## Forms -/

/-- The words for truth and falsehood, in the three usual spellings. -/
def boolWords : List (List Char) :=
  ["yes", "Yes", "YES", "no", "No", "NO", "true", "True", "TRUE", "false", "False", "FALSE", "on",
    "On", "ON", "off", "Off", "OFF"].map String.toList

/-- The words for null; the empty text is one. -/
def nullWords : List (List Char) := ["~", "null", "Null", "NULL", ""].map String.toList

/-- The words for the infinities, without the sign. -/
def infinityWords : List (List Char) := [".inf", ".Inf", ".INF"].map String.toList

/-- The words for the value that is no number. -/
def nanWords : List (List Char) := [".nan", ".NaN", ".NAN"].map String.toList

/-- Whether the text is a number with a point: digits, a point, perhaps digits and an exponent. -/
def isPointForm (cs : List Char) : Bool :=
  match skipRun? isDecimal isDigitOrGap (skipSign cs) with
  | some ('.' :: rest) => isExponentOrEmpty (rest.dropWhile isDigitOrGap)
  | _ => false

/-- Whether the text is a number that starts with its point; it has no sign. -/
def isFractionForm : List Char → Bool
  | '.' :: cs => (skipRun? isDecimal isDigitOrGap cs).elim false isExponentOrEmpty
  | _ => false

/-- Whether the text is a number in base sixty with a point. -/
def isSexagesimalPointForm (cs : List Char) : Bool :=
  let accept : List Char → Bool
    | '.' :: rest => rest.all isDigitOrGap
    | _ => false
  (skipRun? isDecimal isDigitOrGap (skipSign cs)).elim false (sexagesimalEnds accept)

/-- Whether the text is a floating-point number. -/
def isFloatForm (cs : List Char) : Bool :=
  isPointForm cs || isFractionForm cs || isSexagesimalPointForm cs
    || infinityWords.contains (skipSign cs) || nanWords.contains cs

/-- Whether the text is an integer: in base two, eight, ten, sixteen or sixty. -/
def isIntForm (cs : List Char) : Bool :=
  match skipSign cs with
  | '0' :: 'b' :: rest => !rest.isEmpty && rest.all fun c => c == '0' || c == '1' || c == '_'
  | '0' :: 'x' :: rest =>
    !rest.isEmpty && rest.all fun c =>
      isDecimal c || ('a' ≤ c && c ≤ 'f') || ('A' ≤ c && c ≤ 'F') || c == '_'
  | '0' :: rest => rest.all fun c => ('0' ≤ c && c ≤ '7') || c == '_'
  | rest =>
    let behind? := skipRun? (fun c => '1' ≤ c && c ≤ '9') isDigitOrGap rest
    behind?.elim false fun behind => behind.isEmpty || sexagesimalEnds (·.isEmpty) behind

/-- The text behind exactly `count` digits. -/
def skipDigits? (count : Nat) (cs : List Char) : Option (List Char) :=
  if (cs.take count).length = count && (cs.take count).all isDecimal then some (cs.drop count)
  else none

/-- The text behind one digit or two. -/
def skipOneOrTwo? (cs : List Char) : Option (List Char) :=
  (skipDigits? 2 cs).or (skipDigits? 1 cs)

/-- The text behind this character. -/
def skipChar? (c : Char) : List Char → Option (List Char)
  | d :: cs => if c == d then some cs else none
  | [] => none

/-- The text behind what separates a date from a time: a letter, or blanks. -/
def skipDateEnd? : List Char → Option (List Char)
  | c :: cs =>
    if c == 'T' || c == 't' then some cs
    else if c == ' ' || c == '\t' then some (cs.dropWhile fun c => c == ' ' || c == '\t')
    else none
  | [] => none

/-- Whether the whole text is an offset from universal time, or empty; blanks may stand in front. -/
def isOffsetOrEmpty (cs : List Char) : Bool :=
  cs.isEmpty ||
    match cs.dropWhile fun c => c == ' ' || c == '\t' with
    | ['Z'] => true
    | rest =>
      match (skipSign? rest).bind skipOneOrTwo? with
      | some [] => true
      | some (':' :: minutes) => skipDigits? 2 minutes == some []
      | _ => false

/-- Whether the text is a time of day behind its hour. -/
def isTimeTail (cs : List Char) : Bool :=
  let behind? := do
    let cs ← skipChar? ':' cs
    let cs ← skipDigits? 2 cs
    let cs ← skipChar? ':' cs
    skipDigits? 2 cs
  match behind? with
  | some ('.' :: fraction) => isOffsetOrEmpty (fraction.dropWhile isDecimal)
  | some rest => isOffsetOrEmpty rest
  | none => false

/-- Whether the text is a date with two digits for month and day, or a date and a time of day. -/
def isTimestampForm (cs : List Char) : Bool :=
  let dateOnly? := do
    let cs ← skipDigits? 4 cs
    let cs ← skipChar? '-' cs
    let cs ← skipDigits? 2 cs
    let cs ← skipChar? '-' cs
    skipDigits? 2 cs
  let withTime? := do
    let cs ← skipDigits? 4 cs
    let cs ← skipChar? '-' cs
    let cs ← skipOneOrTwo? cs
    let cs ← skipChar? '-' cs
    let cs ← skipOneOrTwo? cs
    let cs ← skipDateEnd? cs
    skipOneOrTwo? cs
  dateOnly? == some [] || withTime?.elim false isTimeTail

/-! ## Resolution -/

/-- The text without a line feed at its end, which forms overlook. -/
def dropFinalFeed (cs : List Char) : List Char :=
  if cs.getLast? == some '\n' then cs.dropLast else cs

/-- What a plain scalar is. -/
def resolve (text : List Char) : CoreTag :=
  let cs := dropFinalFeed text
  if text == ['\n'] then .string
  else if boolWords.contains cs then .bool
  else if isFloatForm cs then .float
  else if isIntForm cs then .int
  else if cs == ['<', '<'] then .merge
  else if nullWords.contains cs then .null
  else if isTimestampForm cs then .timestamp
  else if cs == ['='] then .value
  else if cs == ['!'] || cs == ['&'] || cs == ['*'] then .reserved
  else .string

end ResolverWiring.Yaml
