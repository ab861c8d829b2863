import ResolverWiring.Yaml.Error

/-!
# `ResolverWiring.Yaml.Token` — the tokens of a YAML text

Besides the marks and scalars that a text shows there are tokens for the starts and ends of block
collections, which only the indentation shows.

A reader takes something from the front of a text and gives it with the text behind it, or stops
(`Stop`) at a place, which is given as the text from there on.
-/

namespace ResolverWiring.Yaml

/-- A tag as it is written: with a handle that stands for the front of it, or whole. -/
structure RawTag where
  handle : Option String
  suffix : String
deriving DecidableEq, Repr, Inhabited

/-- What a `%` line in front of a document says. -/
inductive Directive where
  | version (major : Nat)
  | handle (handle : String) (front : String)
  | other
deriving DecidableEq, Repr, Inhabited

/-- What a token is. A scalar is `plain` if it is written without quotes and marks. -/
inductive TokenKind where
  | directive (directive : Directive)
  | documentStart
  | documentEnd
  | streamEnd
  | blockSequenceStart
  | blockMappingStart
  | blockEnd
  | flowSequenceStart
  | flowSequenceEnd
  | flowMappingStart
  | flowMappingEnd
  | flowEntry
  | blockEntry
  | key
  | value
  | alias (name : String)
  | anchor (name : String)
  | tag (tag : RawTag)
  | scalar (text : List Char) (plain : Bool)
  | invalid (error : LoadError)
deriving DecidableEq, Repr, Inhabited

/-- The name of a sort of token. -/
def TokenKind.name : TokenKind → String
  | .directive _ => "<directive>"
  | .documentStart => "<document start>"
  | .documentEnd => "<document end>"
  | .streamEnd => "<stream end>"
  | .blockSequenceStart => "<block sequence start>"
  | .blockMappingStart => "<block mapping start>"
  | .blockEnd => "<block end>"
  | .flowSequenceStart => "["
  | .flowSequenceEnd => "]"
  | .flowMappingStart => "\x7b"
  | .flowMappingEnd => "\x7d"
  | .flowEntry => ","
  | .blockEntry => "-"
  | .key => "?"
  | .value => ":"
  | .alias _ => "<alias>"
  | .anchor _ => "<anchor>"
  | .tag _ => "<tag>"
  | .scalar _ _ => "<scalar>"
  | .invalid _ => "<invalid>"

/-- A token and the place where it starts. -/
structure Token where
  kind : TokenKind
  mark : Mark
deriving DecidableEq, Repr, Inhabited

/-! ## Reading from the front of a text -/

/-- Why a reader stops. Its context starts where the token starts. -/
inductive Stop where
  | problem (context : Context) (problem : Problem) (place : List Char)
  | scalar (error : ScalarError)
deriving DecidableEq, Repr, Inhabited

/-- What a reader gives: something, and the text behind it. -/
abbrev Reading (α : Type) := Except Stop (α × List Char)

/-- Stops at a place where another character is wanted. -/
def Stop.wanted {α : Type} (context : Context) (wanted : String) (place : List Char) : Except Stop α :=
  .error (.problem context (.expectedCharacter wanted place.head?) place)

/-! ## Lines and words -/

/-- What a line end stands for: itself if it separates lines or paragraphs, else a line feed. -/
def breakChar (c : Char) : Char := if c == '\u2028' || c == '\u2029' then c else '\n'

/-- The line end in front, as what it stands for, and the text behind it. -/
def takeBreak? : List Char → Option (Char × List Char)
  | '\r' :: '\n' :: cs => some ('\n', cs)
  | c :: cs => if isBreak c then some (breakChar c, cs) else none
  | [] => none

theorem takeBreak?_length {cs rest : List Char} {c : Char} (h : takeBreak? cs = some (c, rest)) :
    rest.length < cs.length := by
  unfold takeBreak? at h
  split at h
  · simp only [Option.some.injEq, Prod.mk.injEq] at h
    simp only [← h.2, List.length_cons]
    omega
  · split at h
    · simp only [Option.some.injEq, Prod.mk.injEq] at h
      simp only [← h.2, List.length_cons]
      omega
    · simp at h
  · simp at h

/-- Whether a document marker is in front; it only counts as one at the start of a line. -/
def atDocumentMarker : List Char → Bool
  | '-' :: '-' :: '-' :: cs => atBlankOrEnd cs
  | '.' :: '.' :: '.' :: cs => atBlankOrEnd cs
  | _ => false

/-- The text behind spaces. -/
def skipSpaces (cs : List Char) : List Char := cs.dropWhile (· == ' ')

/-- The text from the end of the line on. -/
def skipLine (cs : List Char) : List Char := cs.dropWhile (!isBreak ·)

/-- The text behind the rest of a line that holds nothing but perhaps a comment. -/
def skipCommentLine (context : Context) (cs : List Char) : Except Stop (List Char) :=
  let rest := skipSpaces cs
  let rest := if rest.head? == some '#' then skipLine rest else rest
  match takeBreak? rest with
  | some (_, behind) => .ok behind
  | none =>
    if rest.isEmpty then .ok [] else Stop.wanted context "a comment or a line break" rest

/-- The characters of names: letters, digits, the hyphen and the underscore. -/
def isWordChar (c : Char) : Bool := c.isAlphanum || c == '-' || c == '_'

end ResolverWiring.Yaml
