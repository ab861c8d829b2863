import ResolverWiring.Yaml.Node.Parser
import ResolverWiring.Yaml.Token.Lexer
import ResolverWiring.Yaml.Value.OfNode

/-!
# `ResolverWiring.Yaml.Load` — loading a YAML text

`load` gives the value of the one document that a text may hold; a text without a document is null.
The text must be free of control characters.
-/

namespace ResolverWiring.Yaml

/-- The characters that a text may hold. -/
def isAllowed (c : Char) : Bool :=
  c == '\t' || c == '\n' || c == '\r' || (' ' ≤ c && c ≤ '~') || c == '\u0085'
    || ('\u00a0' ≤ c && c.toNat ≤ 0xfffd) || 0x10000 ≤ c.toNat

/-- A text must be free of characters that are not allowed. -/
def checkCharacters (text : List Char) : Except LoadError Unit :=
  match text.dropWhile isAllowed with
  | [] => .ok ()
  | c :: _ => .error (.unprintable c.toNat (text.takeWhile isAllowed).length)

/-- The value that a text denotes. -/
def load (text : String) : Except LoadError Value := do
  checkCharacters text.toList
  match ← parseDocument (lex text.toList) with
  | none => return .null
  | some node => Value.ofNode node

end ResolverWiring.Yaml
