/-!
# `ResolverWiring.Text.CodeRange` — sets of code points

A set of code points is a sorted table of ranges that do not touch each other, both ends included.
-/

namespace ResolverWiring.Text

/-- Whether one of the ranges numbered `low` up to but not including `high` holds the code point. The
search halves them at each step. -/
def inRanges (ranges : Array (Nat × Nat)) (code low high : Nat) : Bool :=
  if low < high then
    let mid := (low + high) / 2
    match ranges[mid]? with
    | none => false
    | some (first, last) =>
      if code < first then inRanges ranges code low mid
      else if last < code then inRanges ranges code (mid + 1) high
      else true
  else false
termination_by high - low

/-- Whether a table of ranges holds a character. -/
def inTable (ranges : Array (Nat × Nat)) (c : Char) : Bool :=
  inRanges ranges c.toNat 0 ranges.size

end ResolverWiring.Text
