/-!
# `ResolverWiring.Graphql.Suggestion` — names that may have been meant

A name that is not known is compared with the names that are. The distance of two names is the least
number of characters to insert, remove, replace or swap with their neighbour; a difference in case
alone counts as one step. Names that are near enough are suggested, the nearest first.
-/

namespace ResolverWiring.Graphql

/-! ## Distance -/

/-- The cells of a row behind its first one: `left` is the cell in front, `c` and `before?` the
characters of the row and of the row above it, `passed?` the last character of the columns passed, and
`above`, `above2` the cells of the two rows above from the column in front on. -/
def rowCells (c : Char) (before? : Option Char) (left : Nat) (passed? : Option Char) :
    List Char → List Nat → List Nat → List Nat
  | d :: ds, diagonal :: up :: above, above2 =>
    let step := min (min (up + 1) (left + 1)) (diagonal + if c == d then 0 else 1)
    let cell := match above2 with
      | corner :: _ =>
        if passed? == some c && before? == some d then min step (corner + 1) else step
      | [] => step
    let above2 := if passed?.isSome then above2.tail else above2
    cell :: rowCells c before? cell (some d) ds (up :: above) above2
  | _, _, _ => []

/-- The last row of the table of distances between the fronts of two texts, from row `index` on. -/
def lastRow (b : List Char) (index : Nat) (before? : Option Char) (above above2 : List Nat) :
    List Char → List Nat
  | [] => above
  | c :: cs =>
    let row := index :: rowCells c before? index none b above above2
    lastRow b (index + 1) (some c) row above cs

/-- The least number of steps between two texts. -/
def editDistance (a b : List Char) : Nat :=
  ((lastRow b 1 none (List.range (b.length + 1)) [] a).getLast?).getD 0

/-- The distance of two names. -/
def nameDistance (a b : String) : Nat :=
  if a == b then 0
  else
    let a := a.toList.map Char.toLower
    let b := b.toList.map Char.toLower
    if a == b then 1 else editDistance a b

/-! ## Order -/

/-- The number that digits denote, and the digits. -/
def numberPart (digits : List Nat) : List Nat :=
  digits.foldl (fun n d => 10 * n + d) 0 :: digits

/-- A name as text, number, text and so on: the parts by which names are ordered. `current` is the part
so far, from its end to its front. -/
def naturalParts (current : List Nat) (inNumber : Bool) : List Char → List (List Nat)
  | [] => if inNumber then [numberPart current.reverse, []] else [current.reverse]
  | c :: cs =>
    if c.isDigit then
      let digit := c.toNat - '0'.toNat
      if inNumber then naturalParts (digit :: current) true cs
      else current.reverse :: naturalParts [digit] true cs
    else if inNumber then numberPart current.reverse :: naturalParts [c.toNat] false cs
    else naturalParts (c.toNat :: current) false cs

/-- Whether a name comes in front of another one or is the same; digits count as numbers. -/
def naturalLe (a b : String) : Bool :=
  !decide (naturalParts [] false b.toList < naturalParts [] false a.toList)

/-! ## Suggestions -/

/-- Names within this distance are near enough. -/
def nameThreshold (name : String) : Nat := name.length * 2 / 5 + 1

/-- The names that may have been meant, the nearest first. -/
def suggestions (name : String) (options : List String) : List String :=
  let near := options.eraseDups.filterMap fun option =>
    let distance := nameDistance name option
    if distance ≤ nameThreshold name then some (distance, option) else none
  let le (a b : Nat × String) : Bool := a.1 < b.1 || (a.1 == b.1 && naturalLe a.2 b.2)
  (near.mergeSort le).map (·.2)

/-- At most this many names are suggested. -/
def maxSuggestions : Nat := 5

/-- A choice between names. -/
def alternatives : List String → String
  | [] => ""
  | [a] => a
  | [a, b] => a ++ " or " ++ b
  | names => String.intercalate ", " names.dropLast ++ ", or " ++ names.getLast?.getD ""

/-- The question behind a message about a name, if there is anything to suggest. -/
def didYouMean (names : List String) : String :=
  match names.take maxSuggestions with
  | [] => ""
  | names => " Did you mean " ++ alternatives (names.map fun name => "'" ++ name ++ "'") ++ "?"

end ResolverWiring.Graphql
