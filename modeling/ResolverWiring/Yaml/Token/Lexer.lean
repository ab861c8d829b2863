import ResolverWiring.Yaml.Token.Block
import ResolverWiring.Yaml.Token.Plain
import ResolverWiring.Yaml.Token.Quoted
import ResolverWiring.Yaml.Token.Tag

/-!
# `ResolverWiring.Yaml.Token.Lexer` — splitting a text into tokens

`lex` gives the tokens of a text. What a character means depends on what came before it, which
`LexState` holds: how the open block collections are indented, how many flow collections are open,
and where a mapping key may have started.

A mapping key shows only at the colon behind it. So the places where one may have started are
remembered (`PendingKey`), and the token for the key is inserted there when its colon is found. A key
ends on the line where it starts, within 1024 characters.

The list ends in `streamEnd`, or in `invalid` where an error shows: a reader of the list meets the error when
it needs a token behind which the lexer would have to look. While a key is pending, nothing from its
start on is final, so the error shows there already.

## Contents

* `LexState`, and moving on in it;
* pending keys: `savePending`, `removePending`, `dropStale`;
* indentation: `unwind`, `indentTo`;
* one token at a time (`fetch`), and all of them (`lex`).
-/

namespace ResolverWiring.Yaml

/-- A place where a mapping key may have started. -/
structure PendingKey where
  /-- How many flow collections are open there. -/
  level : Nat
  /-- How many tokens are in front of it. -/
  number : Nat
  /-- Whether nothing but a key can start there. -/
  required : Bool
  mark : Mark
deriving DecidableEq, Repr, Inhabited

/-- What is left of a text, and what the tokens so far have opened. -/
structure LexState where
  rest : List Char
  mark : Mark
  /-- How many flow collections are open. -/
  level : Nat
  /-- The columns of the open block collections, the innermost first. -/
  indents : List Nat
  /-- Whether a mapping key may start here. -/
  keyAllowed : Bool
  pending : List PendingKey
  /-- The tokens so far, the last one first. -/
  tokens : List Token
deriving Repr, Inhabited

namespace LexState

/-- The state in front of a text. -/
def start (text : List Char) : LexState := ⟨text, .start, 0, [], true, [], []⟩

/-- The place of `place`, the end of what is left. -/
def markAt (s : LexState) (place : List Char) : Mark :=
  s.mark.advance s.rest (s.rest.length - place.length)

/-- Moves on to where only `rest` is left. -/
def moveTo (s : LexState) (rest : List Char) : LexState :=
  { s with rest := rest, mark := s.markAt rest }

/-- Adds a token. -/
def emit (s : LexState) (kind : TokenKind) (mark : Mark) : LexState :=
  { s with tokens := ⟨kind, mark⟩ :: s.tokens }

/-- Inserts a token behind the first `number` tokens. -/
def insertAt (s : LexState) (number : Nat) (kind : TokenKind) (mark : Mark) : LexState :=
  let behind := s.tokens.length - number
  { s with tokens := s.tokens.take behind ++ ⟨kind, mark⟩ :: s.tokens.drop behind }

/-- An error of form at the place reached. -/
def fail {α : Type} (s : LexState) (problem : Problem) : Except LoadError α :=
  .error (.malformed (.plain problem s.mark))

/-- The error of a reader that started at the place reached. -/
def loadError (s : LexState) : Stop → LoadError
  | .problem context problem place => .malformed (.within context s.mark problem (s.markAt place))
  | .scalar error => .scalar error

/-! ## Pending keys -/

/-- The error of a key that has to be one and has no colon. -/
def missingColon {α : Type} (s : LexState) (key : PendingKey) : Except LoadError α :=
  .error (.malformed (.within .scanningKey key.mark .missingColon s.mark))

/-- Forgets the pending keys that `gone` holds for; none of them may have to be a key. -/
def forget (s : LexState) (gone : PendingKey → Bool) : Except LoadError LexState :=
  match s.pending.find? fun key => gone key && key.required with
  | some key => s.missingColon key
  | none => .ok { s with pending := s.pending.filter (!gone ·) }

/-- A key is at most this long. -/
def maxKeyLength : Nat := 1024

/-- Forgets the pending keys that have become too long or span a line end. -/
def dropStale (s : LexState) : Except LoadError LexState :=
  s.forget fun key => key.mark.line != s.mark.line || key.mark.index + maxKeyLength < s.mark.index

/-- Forgets the pending key of the innermost flow collection. -/
def removePending (s : LexState) : Except LoadError LexState := s.forget (·.level == s.level)

/-- Remembers that a key may start here. -/
def savePending (s : LexState) : Except LoadError LexState :=
  if s.keyAllowed then
    s.removePending.map fun t =>
      let required := s.level = 0 && s.indents.head? == some s.mark.column
      { t with pending := ⟨s.level, s.tokens.length, required, s.mark⟩ :: t.pending }
  else .ok s

/-! ## Indentation -/

/-- Ends the block collections at the front of a list for whose columns `isOver` holds. -/
def closeBlocks (isOver : Nat → Bool) (s : LexState) : List Nat → LexState
  | [] => { s with indents := [] }
  | column :: outer =>
    if isOver column then closeBlocks isOver (s.emit .blockEnd s.mark) outer
    else { s with indents := column :: outer }

/-- Ends block collections, the innermost first; inside flow collections indentation does not count. -/
def unwind (s : LexState) (isOver : Nat → Bool) : LexState :=
  if s.level = 0 then closeBlocks isOver s s.indents else s

/-- Whether a column is deeper than the innermost block collection. -/
def isDeeper (s : LexState) (column : Nat) : Bool := s.indents.head?.all (· < column)

/-- Starts a block collection at the column reached, unless it is open already. -/
def indentTo (s : LexState) (kind : TokenKind) : LexState :=
  if s.isDeeper s.mark.column then
    { s.emit kind s.mark with indents := s.mark.column :: s.indents }
  else s

/-! ## Tokens -/

/-- A token of some characters, which are consumed. -/
def consume (s : LexState) (kind : TokenKind) (count : Nat) : LexState :=
  (s.emit kind s.mark).moveTo (s.rest.drop count)

/-- A token that a reader takes. -/
def take {α : Type} (s : LexState) (kind : α → TokenKind) (reading : Reading α) :
    Except LoadError LexState :=
  match reading with
  | .ok (a, rest) => .ok ((s.emit (kind a) s.mark).moveTo rest)
  | .error stop => .error (s.loadError stop)

/-- A token that may start a key and behind which none may start. -/
def takeKeyStart {α : Type} (s : LexState) (kind : α → TokenKind) (reading : Reading α) :
    Except LoadError LexState := do
  let s ← s.savePending
  { s with keyAllowed := false }.take kind reading

/-- Between documents nothing is open. -/
def betweenDocuments (s : LexState) : Except LoadError LexState :=
  (s.unwind fun _ => true).removePending.map fun t => { t with keyAllowed := false }

/-- A flow collection starts. -/
def openFlow (s : LexState) (kind : TokenKind) : Except LoadError LexState :=
  s.savePending.map fun t => { t with level := t.level + 1, keyAllowed := true }.consume kind 1

/-- A flow collection ends. -/
def closeFlow (s : LexState) (kind : TokenKind) : Except LoadError LexState :=
  s.removePending.map fun t => { t with level := t.level - 1, keyAllowed := false }.consume kind 1

/-- A comma of a flow collection. -/
def flowEntry (s : LexState) : Except LoadError LexState :=
  s.removePending.map fun t => { t with keyAllowed := true }.consume .flowEntry 1

/-- An item of a block sequence starts. -/
def blockEntry (s : LexState) : Except LoadError LexState :=
  if s.level = 0 && !s.keyAllowed then s.fail .entryNotAllowed
  else
    let s := if s.level = 0 then s.indentTo .blockSequenceStart else s
    s.removePending.map fun t => { t with keyAllowed := true }.consume .blockEntry 1

/-- The mark of a key. -/
def explicitKey (s : LexState) : Except LoadError LexState :=
  if s.level = 0 && !s.keyAllowed then s.fail .keyNotAllowed
  else
    let s := if s.level = 0 then s.indentTo .blockMappingStart else s
    s.removePending.map fun t => { t with keyAllowed := t.level = 0 }.consume .key 1

/-- The colon in front of a value. If a key is pending, the token for it is inserted. -/
def value (s : LexState) : Except LoadError LexState :=
  match s.pending.find? (·.level == s.level) with
  | some key =>
    let s := { s with pending := s.pending.filter (·.level != s.level), keyAllowed := false }
    let t := s.insertAt key.number .key key.mark
    let t := if s.level = 0 && s.isDeeper key.mark.column then
        { t.insertAt key.number .blockMappingStart key.mark with
          indents := key.mark.column :: t.indents }
      else t
    .ok (t.consume .value 1)
  | none =>
    if s.level = 0 && !s.keyAllowed then s.fail .valueNotAllowed
    else
      let s := if s.level = 0 then s.indentTo .blockMappingStart else s
      s.removePending.map fun t => { t with keyAllowed := t.level = 0 }.consume .value 1

/-- A block scalar; a key may start behind it. -/
def blockScalar (s : LexState) (style : BlockStyle) (cs : List Char) : Except LoadError LexState := do
  let s ← { s with keyAllowed := true }.removePending
  let minIndent := s.indents.head?.elim 0 (· + 1)
  s.take (.scalar · false) (takeBlock style minIndent cs)

/-- A plain scalar; a key may start behind it on a new line. -/
def plainScalar (s : LexState) : Except LoadError LexState :=
  s.savePending.map fun t =>
    let plain := takePlain (0 < t.level) (t.indents.head?.elim 0 (· + 1)) t.rest
    { t.emit (.scalar plain.text true) t.mark with keyAllowed := plain.endsLine }.moveTo plain.rest

/-- Characters with a meaning of their own, which start no plain scalar. -/
def isIndicator (c : Char) : Bool := "-?:,[]\x7b\x7d#&*!|>'\"%@`".toList.contains c

/-- Whether a plain scalar starts with the character `c` and goes on with `cs`. -/
def startsPlain (inFlow : Bool) (c : Char) (cs : List Char) : Bool :=
  !(isBlank c || isBreak c || isIndicator c)
    || (!atBlankOrEnd cs && (c == '-' || (!inFlow && (c == '?' || c == ':'))))

/-- The next token, when the state is in front of one: the characters `c` and `cs`. -/
def fetch (s : LexState) (c : Char) (cs : List Char) : Except LoadError LexState :=
  let ends := s.level > 0 || atBlankOrEnd cs
  if s.mark.column = 0 && c == '%' then do
    (← s.betweenDocuments).take .directive (takeDirective cs)
  else if s.mark.column = 0 && atDocumentMarker (c :: cs) then
    s.betweenDocuments.map (·.consume (if c == '-' then .documentStart else .documentEnd) 3)
  else if c == '[' then s.openFlow .flowSequenceStart
  else if c == '{' then s.openFlow .flowMappingStart
  else if c == ']' then s.closeFlow .flowSequenceEnd
  else if c == '}' then s.closeFlow .flowMappingEnd
  else if c == ',' then s.flowEntry
  else if c == '-' && atBlankOrEnd cs then s.blockEntry
  else if c == '?' && ends then s.explicitKey
  else if c == ':' && ends then s.value
  else if c == '*' then s.takeKeyStart .alias (takeName .scanningAlias cs)
  else if c == '&' then s.takeKeyStart .anchor (takeName .scanningAnchor cs)
  else if c == '!' then s.takeKeyStart .tag (takeTag cs)
  else if c == '|' && s.level = 0 then s.blockScalar .literal cs
  else if c == '>' && s.level = 0 then s.blockScalar .folded cs
  else if c == '\'' then s.takeKeyStart (.scalar · false) (takeQuoted .single cs)
  else if c == '"' then s.takeKeyStart (.scalar · false) (takeQuoted .double cs)
  else if startsPlain (0 < s.level) c cs then s.plainScalar
  else .error (.malformed ⟨some .seekingToken, none, .cannotStartToken c, s.mark⟩)

/-! ## All tokens -/

/-- The text from the next token on, and whether a line end was passed; `inComment` says whether the
text starts inside a comment. -/
def skipToToken (inComment crossed : Bool) : List Char → Bool × List Char
  | [] => (crossed, [])
  | c :: cs =>
    if isBreak c then skipToToken false true cs
    else if inComment then skipToToken true crossed cs
    else if c == ' ' then skipToToken false crossed cs
    else if c == '#' then skipToToken true crossed cs
    else (crossed, c :: cs)

/-- Moves on to the next token. A byte order mark at the start of the text is passed over. -/
def seek (s : LexState) : Except LoadError LexState :=
  let (crossed, rest) := skipToToken false false
    (if s.mark.index = 0 && s.rest.head? == some '\ufeff' then s.rest.tail else s.rest)
  let s := { s.moveTo rest with keyAllowed := s.keyAllowed || (crossed && s.level = 0) }
  s.dropStale.map fun t => t.unwind (t.mark.column < ·)

/-- The end of the text. -/
def finish (s : LexState) : Except LoadError LexState :=
  (s.unwind fun _ => true).removePending.map fun t => t.emit .streamEnd t.mark

/-- How many of the tokens are final: all in front of the first pending key. -/
def settled (s : LexState) : Nat := (s.pending.map (·.number)).foldl min s.tokens.length

/-- The tokens, if an error is met behind them. -/
def failed (s : LexState) (error : LoadError) : List Token :=
  s.tokens.reverse.take s.settled ++ [⟨.invalid error, s.mark⟩]

/-- All tokens; every round but the last one takes at least one character. -/
def run : Nat → LexState → List Token
  | 0, s => s.tokens.reverse
  | bound + 1, s =>
    match s.seek with
    | .error e => s.failed e
    | .ok t =>
      match t.rest with
      | [] =>
        match t.finish with
        | .error e => s.failed e
        | .ok t => t.tokens.reverse
      | c :: cs =>
        match t.fetch c cs >>= dropStale with
        | .error e => s.failed e
        | .ok t => run bound t

end LexState

/-- The tokens of a text. -/
def lex (text : List Char) : List Token := (LexState.start text).run (text.length + 1)

end ResolverWiring.Yaml
