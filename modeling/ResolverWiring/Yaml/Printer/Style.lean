import ResolverWiring.Yaml.Mark
import ResolverWiring.Yaml.Tag.Resolution

/-!
# `ResolverWiring.Yaml.Printer.Style` — how a scalar is written

A scalar is written plainly if the text alone then shows what it is: it must resolve to its own tag,
and nothing in it may be taken for a mark. Otherwise it is written in single quotes, if these show
every character of it, and else in double quotes.

Bytes are written line by line as a literal block.
-/

namespace ResolverWiring.Yaml

/-- The styles of written scalars. -/
inductive Style where
  | plain
  | single
  | double
  | literal
deriving DecidableEq, Repr, Inhabited

/-! ## What a text holds -/

/-- Whether a character shows as itself in a written text. -/
def isVisible (c : Char) : Bool := ' ' ≤ c && c ≤ '~'

/-- Characters that mean something at the start of a plain scalar. -/
def isLeadingMark (c : Char) : Bool := "#,[]\x7b\x7d&*!|>'\"%@`".toList.contains c

/-- Whether a mark at the start of a text would not be taken as a part of a plain scalar. -/
def startsWithMark : List Char → Bool
  | [] => false
  | c :: cs => isLeadingMark c || ((c == '?' || c == ':' || c == '-') && atBlankOrEnd cs)

/-- Whether a text starts like the mark of a document. -/
def startsLikeDocument (text : List Char) : Bool :=
  "---".toList.isPrefixOf text || "...".toList.isPrefixOf text

/-- Whether a mark behind the first character would not be taken as a part of a plain scalar: a colon
in front of a blank, or a number sign behind one. -/
def holdsMark : List Char → Bool
  | a :: b :: cs =>
    (b == ':' && atBlankOrEnd cs) || (b == '#' && (isBlank a || isBreak a)) || holdsMark (b :: cs)
  | _ => false

/-- Whether a space stands next to a line end, behind it or in front. -/
def hasSpaceAtBreak : List Char → Bool
  | a :: b :: cs => (a == ' ' && b == '\n') || (a == '\n' && b == ' ') || hasSpaceAtBreak (b :: cs)
  | _ => false

/-- Whether every character shows as itself or is a line feed. -/
def isShowable (text : List Char) : Bool := text.all fun c => isVisible c || c == '\n'

/-- Whether a text is on one line. -/
def isOneLine (text : List Char) : Bool := text.all fun c => !isBreak c || c == '\r'

/-- Whether a text starts or ends with a space. -/
def hasOuterSpace (text : List Char) : Bool :=
  text.head? == some ' ' || text.getLast? == some ' '

/-! ## Choosing a style -/

/-- Whether a text may stand without quotes. -/
def allowsPlain (text : List Char) : Bool :=
  isOneLine text && isShowable text && !hasOuterSpace text && !startsLikeDocument text
    && !startsWithMark text && !holdsMark text

/-- Whether a text may stand in single quotes. -/
def allowsSingle (text : List Char) : Bool := isShowable text && !hasSpaceAtBreak text

/-- The style of a scalar. -/
def styleOf (tag : CoreTag) (text : List Char) : Style :=
  if tag = .binary then if text.isEmpty then .double else .literal
  else if resolve text = tag && allowsPlain text then .plain
  else if allowsSingle text then .single
  else .double

end ResolverWiring.Yaml
