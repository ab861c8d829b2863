/-!
# `ResolverWiring.Text.Blank` — white space around a text

The characters that count as white space are those of the character database: the blanks of ASCII,
the information separators, and the spaces and separators of other scripts.
-/

namespace ResolverWiring.Text

/-- White space, in any script. -/
def isWhitespace (c : Char) : Bool :=
  ('\t' ≤ c && c ≤ '\r') || ('\x1c' ≤ c && c ≤ ' ') || c == '\u0085' || c == '\u00a0'
    || c == '\u1680' || ('\u2000' ≤ c && c ≤ '\u200a') || c == '\u2028' || c == '\u2029'
    || c == '\u202f' || c == '\u205f' || c == '\u3000'

/-- The text without characters of a class at its ends. -/
def strip (isStripped : Char → Bool) (cs : List Char) : List Char :=
  ((cs.dropWhile isStripped).reverse.dropWhile isStripped).reverse

/-- The text without white space at its ends. -/
def stripBlanks (cs : List Char) : List Char := strip isWhitespace cs

end ResolverWiring.Text
