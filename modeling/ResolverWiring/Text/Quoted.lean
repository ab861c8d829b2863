import ResolverWiring.Text.Hex
import ResolverWiring.Text.Printable

/-!
# `ResolverWiring.Text.Quoted` — texts and bytes as messages show them

A quoted text stands between single quotes, or between double quotes if it holds a single quote and
no double one. Inside, the quote, the backslash and whatever has no visible form are escaped.
-/

namespace ResolverWiring.Text

/-- The quote for a text that is known to hold single quotes, double quotes. -/
def chooseQuote (hasSingle hasDouble : Bool) : Char :=
  if hasSingle && !hasDouble then '"' else '\''

/-- The escape of a code point that has no visible form. -/
def escapeCode (n : Nat) : List Char :=
  if n < 0x100 then '\\' :: 'x' :: lowerHex 2 n
  else if n < 0x10000 then '\\' :: 'u' :: lowerHex 4 n
  else '\\' :: 'U' :: lowerHex 8 n

/-- The escapes that both texts and bytes have, if `c` is one that needs it. -/
def shortEscape? (quote c : Char) : Option (List Char) :=
  if c == quote || c == '\\' then some ['\\', c]
  else if c == '\t' then some ['\\', 't']
  else if c == '\n' then some ['\\', 'n']
  else if c == '\r' then some ['\\', 'r']
  else none

/-- A text in quotes. -/
def quoteText (text : List Char) : List Char :=
  let quote := chooseQuote (text.contains '\'') (text.contains '"')
  let escape (c : Char) : List Char :=
    (shortEscape? quote c).getD (if isPrintable c then [c] else escapeCode c.toNat)
  quote :: (text.flatMap escape ++ [quote])

/-- Bytes in quotes, marked as such; all but printable ASCII is escaped. -/
def quoteBytes (bytes : List UInt8) : List Char :=
  let chars := bytes.map fun b => Char.ofNat b.toNat
  let quote := chooseQuote (chars.contains '\'') (chars.contains '"')
  let escape (c : Char) : List Char :=
    (shortEscape? quote c).getD (if ' ' ≤ c && c ≤ '~' then [c] else escapeCode c.toNat)
  'b' :: quote :: (chars.flatMap escape ++ [quote])

/-- A text in quotes. -/
def quoted (text : String) : String := String.ofList (quoteText text.toList)

/-- A character in quotes; the end of a text shows as the character with code zero. -/
def quotedChar (c? : Option Char) : String :=
  String.ofList (quoteText [c?.getD '\x00'])

end ResolverWiring.Text
