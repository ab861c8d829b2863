import ResolverWiring.Yaml.Token

/-!
# `ResolverWiring.Yaml.Token.Quoted` — scalars in quotes

In single quotes only the quote itself is written specially, twice. In double quotes a backslash
starts an escape; in front of a line end it joins the lines.

A run of blanks is kept inside a line and folded around line ends. A quoted scalar may not hold a
document marker.
-/

namespace ResolverWiring.Yaml

open Text

/-- The two styles of quotes. -/
inductive QuoteStyle where
  | single
  | double
deriving DecidableEq, Repr, Inhabited

/-- The quote of a style. -/
def QuoteStyle.quote : QuoteStyle → Char
  | .single => '\''
  | .double => '"'

/-! ## Blanks and line ends -/

/-- The blank lines in front, from the start of a line on: their ends, and the text behind the blanks
that follow them. -/
def takeBlankLines (cs : List Char) : Reading (List Char) :=
  if atDocumentMarker cs then .error (.problem .scanningQuoted .separatorInQuotes cs)
  else
    match _h : takeBreak? (cs.dropWhile isBlank) with
    | none => .ok ([], cs.dropWhile isBlank)
    | some (c, rest) => (takeBlankLines rest).map fun (breaks, behind) => (c :: breaks, behind)
termination_by cs.length
decreasing_by
  have hblank := (List.dropWhile_sublist isBlank (l := cs)).length_le
  have := takeBreak?_length _h
  omega

/-- The blanks and line ends in front, as what they stand for. -/
def takeQuotedGap (cs : List Char) : Reading (List Char) :=
  match takeBreak? (cs.dropWhile isBlank) with
  | none => .ok (cs.takeWhile isBlank, cs.dropWhile isBlank)
  | some (first, line) =>
    (takeBlankLines line).map fun (others, rest) =>
      (if first != '\n' then first :: others else if others.isEmpty then [' '] else others, rest)

/-! ## Escapes -/

/-- What the letter of a short escape stands for. -/
def shortEscape? : Char → Option Char
  | '0' => some '\x00'
  | 'a' => some '\x07'
  | 'b' => some '\x08'
  | 't' => some '\t'
  | '\t' => some '\t'
  | 'n' => some '\n'
  | 'v' => some '\x0b'
  | 'f' => some '\x0c'
  | 'r' => some '\r'
  | 'e' => some '\x1b'
  | ' ' => some ' '
  | '"' => some '"'
  | '\\' => some '\\'
  | '/' => some '/'
  | 'N' => some '\u0085'
  | '_' => some '\u00a0'
  | 'L' => some '\u2028'
  | 'P' => some '\u2029'
  | _ => none

/-- How many hexadecimal digits follow the letter of a numeric escape. -/
def escapeWidth? : Char → Option Nat
  | 'x' => some 2
  | 'u' => some 4
  | 'U' => some 8
  | _ => none

/-- The character with a code. Half of a pair of surrogates is no character; the replacement
character stands for it. A code that is none of a character has one of two errors, by its size. -/
def charOfCode (code : Nat) : Except ScalarError Char :=
  if isScalar code then .ok (Char.ofNat code)
  else if code < 0x110000 then .ok '\ufffd'
  else if code < 0x80000000 then .error .notCharacter
  else .error .codeTooLarge

/-- The character that a number of hexadecimal digits in front denotes. -/
def takeCode (width : Nat) (cs : List Char) : Reading Char :=
  let digits := cs.take width
  if digits.length = width && digits.all fun c => (hexDigit? c).isSome then
    match charOfCode ((hexValue? digits).getD 0) with
    | .ok c => .ok (c, cs.drop width)
    | .error e => .error (.scalar e)
  else
    let found := (digits.find? fun c => (hexDigit? c).isNone)
    .error (.problem .scanningDoubleQuoted
      (.expectedCharacter ("escape sequence of " ++ toString width ++ " hexadecimal numbers") found) cs)

/-- What the escape in front stands for; its backslash has been read. -/
def takeEscape : List Char → Reading (List Char)
  | [] => .error (.problem .scanningDoubleQuoted (.unknownEscape none) [])
  | c :: cs =>
    match shortEscape? c, escapeWidth? c with
    | some denoted, _ => .ok ([denoted], cs)
    | none, some width => (takeCode width cs).map fun (denoted, rest) => ([denoted], rest)
    | none, none =>
      match takeBreak? (c :: cs) with
      | some (_, line) => takeBlankLines line
      | none => .error (.problem .scanningDoubleQuoted (.unknownEscape c) (c :: cs))

/-! ## Scalars -/

/-- One piece of a quoted scalar and the text behind it; `none` at the closing quote. -/
def takePiece (style : QuoteStyle) : List Char → Except Stop (Option (List Char × List Char))
  | [] => .error (.problem .scanningQuoted .endInQuotes [])
  | c :: cs =>
    if style = .single && c == '\'' && cs.head? == some '\'' then .ok (some (['\''], cs.tail))
    else if c == style.quote then .ok none
    else if isBlank c || isBreak c then (takeQuotedGap (c :: cs)).map some
    else if style = .double && c == '\\' then (takeEscape cs).map some
    else .ok (some ([c], cs))

/-- The text up to the closing quote, and what is behind it; there are no more pieces than
characters. -/
def takeQuotedFrom (style : QuoteStyle) :
    Nat → List Char → Except Stop (List Char × List Char)
  | 0, cs => .error (.problem .scanningQuoted .endInQuotes cs)
  | bound + 1, cs => do
    match ← takePiece style cs with
    | none => return ([], cs.tail)
    | some (piece, rest) =>
      let (others, behind) ← takeQuotedFrom style bound rest
      return (piece ++ others, behind)

/-- The quoted scalar whose opening quote has been read. -/
def takeQuoted (style : QuoteStyle) (cs : List Char) : Reading (List Char) :=
  takeQuotedFrom style (cs.length + 1) cs

end ResolverWiring.Yaml
