import ResolverWiring.Yaml.Token

/-!
# `ResolverWiring.Yaml.Token.Tag` — names, tags and directives

Anchors and aliases are words behind a mark. A tag is a handle and a suffix, or a suffix between angle
brackets; in a suffix a percent sign starts a byte of a character outside of the alphabet. A directive
is a line in front of a document.
-/

namespace ResolverWiring.Yaml

open Decimal Text

/-! ## Anchors and aliases -/

/-- Whether an anchor or alias may end in front of this character. -/
def endsName (c? : Option Char) : Bool :=
  c?.all fun c => isBlank c || isBreak c || "?:,]\x7d%@`".toList.contains c

/-- The name of an anchor or alias. -/
def takeName (context : Context) (cs : List Char) : Reading String :=
  let name := cs.takeWhile isWordChar
  let rest := cs.dropWhile isWordChar
  let wanted := "alphabetic or numeric character"
  if name.isEmpty then Stop.wanted context wanted cs
  else if !endsName rest.head? then Stop.wanted context wanted rest
  else .ok (String.ofList name, rest)

/-! ## Tags -/

/-- The marks that a tag suffix may hold besides letters, digits and escapes. -/
def tagMarks : List Char := "-;/?:@&=+$,_.!~*'()[]".toList

/-- Whether a character stands for itself in a tag suffix. -/
def isTagChar (c : Char) : Bool := c.isAlphanum || tagMarks.contains c

/-- The bytes in front, each a percent sign and two hexadecimal digits; `start` is the text from the
first of them on. -/
def takeBytes (context : Context) : List Char → Reading (List UInt8)
  | '%' :: a :: b :: cs =>
    match hexDigit? a, hexDigit? b with
    | some high, some low =>
      (takeBytes context cs).map fun (bytes, rest) => (UInt8.ofNat (16 * high + low) :: bytes, rest)
    | none, _ => refuse a (a :: b :: cs)
    | _, none => refuse b (a :: b :: cs)
  | '%' :: cs => refuse (cs.find? fun c => (hexDigit? c).isNone) cs
  | cs => .ok ([], cs)
where
  /-- Stops at a character that is no hexadecimal digit. -/
  refuse (found : Option Char) (place : List Char) : Reading (List UInt8) :=
    .error (.problem context
      (.expectedCharacter "URI escape sequence of 2 hexadecimal numbers" found) place)

/-- The characters that a run of escaped bytes in front denotes. -/
def takeEscapedChars (context : Context) (cs : List Char) : Reading (List Char) :=
  match takeBytes context cs with
  | .error e => .error e
  | .ok (bytes, rest) =>
    match Utf8.decode (ByteArray.mk bytes.toArray) with
    | .ok text => .ok (text.toList, rest)
    | .error fault => .error (.problem context (.notUtf8 fault) cs)

/-- The characters of a suffix in front; there are no more pieces than characters. -/
def takeSuffixChars (context : Context) : Nat → List Char → Reading (List Char)
  | 0, cs => .ok ([], cs)
  | _, [] => .ok ([], [])
  | bound + 1, c :: cs =>
    if c == '%' then
      match takeEscapedChars context (c :: cs) with
      | .error e => .error e
      | .ok (chars, rest) =>
        (takeSuffixChars context bound rest).map fun (others, rest) => (chars ++ others, rest)
    else if isTagChar c then
      (takeSuffixChars context bound cs).map fun (others, rest) => (c :: others, rest)
    else .ok ([], c :: cs)

/-- The suffix in front, which must not be empty. The contexts are those of escapes and of the
suffix. -/
def takeSuffix (escapes whole : Context) (cs : List Char) : Reading String :=
  match takeSuffixChars escapes cs.length cs with
  | .error e => .error e
  | .ok (chars, rest) =>
    if rest.length = cs.length then Stop.wanted whole "URI" cs
    else .ok (String.ofList chars, rest)

/-- The handle in front: a lone exclamation mark, or a word between two of them. -/
def takeHandle (context : Context) : List Char → Reading String
  | '!' :: cs =>
    if cs.head? == some ' ' then .ok ("!", cs)
    else
      let word := cs.takeWhile isWordChar
      match cs.dropWhile isWordChar with
      | '!' :: rest => .ok ("!" ++ String.ofList word ++ "!", rest)
      | rest => Stop.wanted context "'!'" rest
  | cs => Stop.wanted context "'!'" cs

/-- Whether a tag has a handle of its own: an exclamation mark in front of the next space. -/
def hasHandle (cs : List Char) : Bool :=
  (cs.takeWhile fun c => !(c == ' ' || isBreak c)).contains '!'

/-- The tag in front; its exclamation mark has been read. -/
def takeTag (cs : List Char) : Except Stop (RawTag × List Char) := do
  let (tag, rest) ←
    match cs with
    | '<' :: cs => do
      let (suffix, rest) ← takeSuffix .scanningTag .parsingTag cs
      match rest with
      | '>' :: rest => pure (⟨none, suffix⟩, rest)
      | _ => Stop.wanted .parsingTag "'>'" rest
    | _ =>
      if atBlankOrEnd cs then pure (⟨none, "!"⟩, cs)
      else do
        let (handle, cs) ← if hasHandle cs then takeHandle .scanningTag ('!' :: cs) else pure ("!", cs)
        let (suffix, rest) ← takeSuffix .scanningTag .parsingTag cs
        pure (RawTag.mk (some handle) suffix, rest)
  if atSpaceOrEnd rest then return (tag, rest)
  else Stop.wanted .scanningTag "' '" rest

/-! ## Directives -/

/-- The number in front. -/
def takeNumber (cs : List Char) : Reading Nat :=
  let digits := cs.takeWhile Char.isDigit
  if digits.isEmpty then Stop.wanted .scanningDirective "a digit" cs
  else if maxDigits < digits.length then .error (.scalar (.tooManyDigits ⟨some digits.length⟩))
  else .ok (digits.foldl (fun n c => 10 * n + (c.toNat - '0'.toNat)) 0, cs.dropWhile Char.isDigit)

/-- The version in front, of which the number before the point matters. -/
def takeVersion (cs : List Char) : Except Stop (Directive × List Char) := do
  let (major, cs) ← takeNumber (skipSpaces cs)
  match cs with
  | '.' :: cs =>
    let (_, cs) ← takeNumber cs
    if atSpaceOrEnd cs then return (.version major, cs)
    else Stop.wanted .scanningDirective "a digit or ' '" cs
  | _ => Stop.wanted .scanningDirective "a digit or '.'" cs

/-- The handle in front, and what it stands for. -/
def takeHandleMeaning (cs : List Char) : Except Stop (Directive × List Char) := do
  let (handle, cs) ← takeHandle .scanningDirective (skipSpaces cs)
  if cs.head? != some ' ' then Stop.wanted .scanningDirective "' '" cs
  else
    let (front, cs) ← takeSuffix .scanningDirective .parsingDirective (skipSpaces cs)
    if atSpaceOrEnd cs then return (.handle handle front, cs)
    else Stop.wanted .scanningDirective "' '" cs

/-- The directive whose percent sign has been read, with the rest of its line. -/
def takeDirective (cs : List Char) : Except Stop (Directive × List Char) := do
  let name := cs.takeWhile isWordChar
  let cs' := cs.dropWhile isWordChar
  let wanted := "alphabetic or numeric character"
  if name.isEmpty then Stop.wanted .scanningDirective wanted cs
  else if !atSpaceOrEnd cs' then Stop.wanted .scanningDirective wanted cs'
  else
    let (directive, rest) ←
      match String.ofList name with
      | "YAML" => takeVersion cs'
      | "TAG" => takeHandleMeaning cs'
      | _ => pure (.other, skipLine cs')
    let rest ← skipCommentLine .scanningDirective rest
    return (directive, rest)

end ResolverWiring.Yaml
