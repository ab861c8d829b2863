import ResolverWiring.Graphql.Token

/-!
# `ResolverWiring.Graphql.Token.Lexer` — splitting a text into tokens

`lex` splits a text into tokens, each together with the text from its first character on, so that a
place can be computed for the one token that a message names. Blanks, commas, line ends, byte order
marks and comments separate tokens and are skipped.

The list ends in `endOfInput`, or in `invalid` at the first character that starts no token.

## Contents

* readers for names, numbers and strings (`readNumber`, `readString`, `readBlock`);
* `next`, one token, with `next_shorter`: a token takes at least one character;
* `lex`, and `tokens`, which leaves out the places.
-/

namespace ResolverWiring.Graphql

open ResolverWiring.Text

namespace Lexer

/-! ## Character classes -/

/-- Letters and the underscore start a name. -/
def isNameStart (c : Char) : Bool :=
  ('a' ≤ c && c ≤ 'z') || ('A' ≤ c && c ≤ 'Z') || c == '_'

/-- The digits. -/
def isDigit (c : Char) : Bool := '0' ≤ c && c ≤ '9'

/-- Letters, digits and the underscore continue a name. -/
def isNameContinue (c : Char) : Bool := isNameStart c || isDigit c

/-- Characters between tokens that mean nothing. -/
def isIgnored (c : Char) : Bool :=
  c == ' ' || c == '\t' || c == ',' || c == '\ufeff' || isLineEnd c

/-- The text from the next token on; `inComment` says whether it starts inside a comment. -/
def skipIgnored (inComment : Bool) : List Char → List Char
  | [] => []
  | c :: cs =>
    if inComment then skipIgnored (!isLineEnd c) cs
    else if isIgnored c then skipIgnored false cs
    else if c == '#' then skipIgnored true cs
    else c :: cs

theorem skipIgnored_length_le (inComment : Bool) (cs : List Char) :
    (skipIgnored inComment cs).length ≤ cs.length := by
  induction cs generalizing inComment with
  | nil => simp [skipIgnored]
  | cons c cs ih =>
    unfold skipIgnored
    split
    · exact Nat.le_succ_of_le (ih _)
    · split
      · exact Nat.le_succ_of_le (ih _)
      · split
        · exact Nat.le_succ_of_le (ih _)
        · exact Nat.le_refl _

/-! ## Results of reading -/

/-- What reading the front of a text gives: a value and the text behind it, or an error and the text
from the fault on. -/
inductive Reading (α : Type) where
  | done (value : α) (rest : List Char)
  | fault (cause : LexicalError) (place : List Char)
deriving Repr, Inhabited

namespace Reading

/-- Goes on with what the first reading left. -/
def bind {α β : Type} (r : Reading α) (f : α → List Char → Reading β) : Reading β :=
  match r with
  | done value rest => f value rest
  | fault cause place => fault cause place

/-- Changes the value. -/
def map {α β : Type} (f : α → β) (r : Reading α) : Reading β :=
  r.bind fun value rest => done (f value) rest

theorem bind_eq_done {α β : Type} {r : Reading α} {f : α → List Char → Reading β} {b : β}
    {rest : List Char} (h : r.bind f = done b rest) :
    ∃ a mid, r = done a mid ∧ f a mid = done b rest := by
  cases r with
  | done a mid => exact ⟨a, mid, rfl, h⟩
  | fault => simp [bind] at h

end Reading

/-! ## Numbers -/

/-- One digit or more. -/
def readDigits (cs : List Char) : Reading (List Char) :=
  match cs.takeWhile isDigit with
  | [] => .fault (.digitExpected cs.head?) cs
  | digits => .done digits (cs.dropWhile isDigit)

/-- The whole part of a number: a lone zero, or digits that do not start with one. -/
def readWhole : List Char → Reading (List Char)
  | '0' :: cs =>
    if cs.head?.any isDigit then .fault (.digitAfterZero cs.head?) cs else .done ['0'] cs
  | cs => readDigits cs

/-- The fraction of a number, point included, if there is one. -/
def readFraction : List Char → Reading (List Char)
  | '.' :: cs => (readDigits cs).map ('.' :: ·)
  | cs => .done [] cs

/-- The exponent of a number, its letter and sign included, if there is one. -/
def readExponent : List Char → Reading (List Char)
  | e :: cs =>
    if e == 'e' || e == 'E' then
      match cs with
      | sign :: digits =>
        if sign == '+' || sign == '-' then (readDigits digits).map fun ds => e :: sign :: ds
        else (readDigits cs).map (e :: ·)
      | [] => .fault (.digitExpected none) []
    else .done [] (e :: cs)
  | [] => .done [] []

/-- What must not follow a number directly. -/
def sticksToNumber (c : Char) : Bool := c == '.' || isNameStart c

/-- A number: an integer, or with a fraction or an exponent a float. -/
def readNumber (cs : List Char) : Reading Token :=
  let (sign, unsigned) := match cs with
    | '-' :: r => (['-'], r)
    | r => ([], r)
  (readWhole unsigned).bind fun whole r =>
  (readFraction r).bind fun fraction r =>
  (readExponent r).bind fun exponent r =>
    if r.head?.any sticksToNumber then .fault (.digitExpected r.head?) r
    else
      let text := String.ofList (sign ++ whole ++ fraction ++ exponent)
      if fraction.isEmpty && exponent.isEmpty then .done (.int text) r else .done (.float text) r

/-! ## Strings -/

/-- An escape sequence: the character it stands for, and how many characters it takes. -/
inductive Escape where
  | character (c : Char) (size : Nat)
  | fault (cause : LexicalError)

/-- The code of four hexadecimal digits at the front, if they are there. -/
def readCode4 (cs : List Char) : Option Nat :=
  let digits := cs.take 4
  if digits.length < 4 then none else hexValue? digits

/-- The character that a surrogate pair encodes. -/
def pairedSurrogates (lead trail : Nat) : Char :=
  Char.ofNat (0x10000 + (lead - 0xD800) * 0x400 + (trail - 0xDC00))

/-- The code behind the first half of a surrogate pair, if a second escape follows it. -/
def readTrail : List Char → Option Nat
  | '\\' :: 'u' :: digits => readCode4 digits
  | _ => none

/-- The character of the escape `\uXXXX`, or of two of them that form a surrogate pair, and how many
characters it takes; `cs` starts at the backslash. -/
def readCodes (cs : List Char) : Option (Char × Nat) := do
  let code ← readCode4 (cs.drop 2)
  if isScalar code then return (Char.ofNat code, 6)
  else if 0xDC00 ≤ code then none
  else
    let trail ← readTrail (cs.drop 6)
    if 0xDC00 ≤ trail && trail ≤ 0xDFFF then return (pairedSurrogates code trail, 12)
    else none

/-- The escape `\uXXXX`, or two of them that form a surrogate pair. `cs` starts at the backslash. -/
def readUnicodeFixed (cs : List Char) : Escape :=
  match readCodes cs with
  | some (character, size) => .character character size
  | none => .fault (.invalidUnicodeEscape (cs.take 6))

/-- The digits and the closing brace of `\u\x7bX...\x7d`: the code so far, the number of characters
so far, and how many more may be read. The outcome is the size with the code if it is complete. -/
def readBraced (code size : Nat) : Nat → List Char → Nat × Option Nat
  | 0, _ => (size, none)
  | _, [] => (size, none)
  | more + 1, c :: cs =>
    if c == '}' then (size + 1, if 5 ≤ size + 1 && isScalar code then some code else none)
    else match hexDigit? c with
      | some d => readBraced (16 * code + d) (size + 1) more cs
      | none => (size + 1, none)

/-- The longest escape with braces has this many characters. -/
def longestBraced : Nat := 12

/-- The escape with braces. `cs` starts at the backslash. -/
def readUnicodeBraced (cs : List Char) : Escape :=
  match readBraced 0 3 (longestBraced - 3) (cs.drop 3) with
  | (size, some code) => .character (Char.ofNat code) size
  | (size, none) => .fault (.invalidUnicodeEscape (cs.take size))

/-- The characters that a backslash and one letter stand for. -/
def escapedCharacter? : Char → Option Char
  | '"' => some '"'
  | '/' => some '/'
  | '\\' => some '\\'
  | 'b' => some '\x08'
  | 'f' => some '\x0c'
  | 'n' => some '\n'
  | 'r' => some '\r'
  | 't' => some '\t'
  | _ => none

/-- The escape sequence at the front of `cs`, which starts at the backslash. -/
def readEscape (cs : List Char) : Escape :=
  match cs.drop 1 with
  | 'u' :: '{' :: _ => readUnicodeBraced cs
  | 'u' :: _ => readUnicodeFixed cs
  | c :: _ =>
    match escapedCharacter? c with
    | some character => .character character 2
    | none => .fault (.invalidEscape (cs.take 2))
  | [] => .fault (.invalidEscape (cs.take 2))

/-- The text of a quoted string and what follows it; `cs` starts behind the opening quote. -/
def readString : List Char → Reading (List Char)
  | [] => .fault .unterminatedString []
  | c :: cs =>
    if c == '"' then .done [] cs
    else if c == '\\' then
      match readEscape (c :: cs) with
      | .character character size => (readString (cs.drop (size - 1))).map (character :: ·)
      | .fault cause => .fault cause (c :: cs)
    else if isLineEnd c then .fault .unterminatedString (c :: cs)
    else (readString cs).map (c :: ·)
termination_by cs => cs.length
decreasing_by all_goals simp; try omega

/-- What stands between the quotes of a block string, escapes resolved, and what follows it; the
text starts behind the opening quotes. -/
def readBlock : List Char → Reading (List Char)
  | '"' :: '"' :: '"' :: cs => .done [] cs
  | '\\' :: '"' :: '"' :: '"' :: cs => (readBlock cs).map fun text => '"' :: '"' :: '"' :: text
  | c :: cs => (readBlock cs).map (c :: ·)
  | [] => .fault .unterminatedString []

/-- A string of either form; `cs` starts behind the first quote. -/
def readAnyString : List Char → Reading Token
  | '"' :: '"' :: cs =>
    (readBlock cs).map fun written =>
      .string ⟨String.ofList (BlockString.dedent written), true⟩
  | cs => (readString cs).map fun text => .string ⟨String.ofList text, false⟩

/-! ## One token -/

/-- The token at the front of a text that starts with neither a separator nor a comment. -/
def next : List Char → Reading Token
  | [] => .done .endOfInput []
  | c :: cs =>
    if c == '"' then readAnyString cs
    else match Punctuator.ofChar? c with
      | some mark => .done (.punctuator mark) cs
      | none =>
        if isDigit c || c == '-' then readNumber (c :: cs)
        else if isNameStart c then
          .done (.name (String.ofList ((c :: cs).takeWhile isNameContinue)))
            ((c :: cs).dropWhile isNameContinue)
        else match c :: cs with
          | '.' :: '.' :: '.' :: rest => .done (.punctuator .spread) rest
          | _ =>
            .fault (if c == '\'' then .singleQuote else .unexpectedCharacter (some c)) (c :: cs)

/-! ## Every token takes a character -/

theorem readDigits_shorter {cs rest digits : List Char} (h : readDigits cs = .done digits rest) :
    rest.length < cs.length := by
  unfold readDigits at h
  have split : (cs.takeWhile isDigit).length + (cs.dropWhile isDigit).length = cs.length := by
    rw [← List.length_append, List.takeWhile_append_dropWhile]
  cases taken : cs.takeWhile isDigit with
  | nil => simp [taken] at h
  | cons d ds =>
    simp only [taken, Reading.done.injEq] at h
    rw [taken, List.length_cons, h.2] at split
    omega

theorem Reading.map_eq_done {α β : Type} {r : Reading α} {f : α → β} {b : β} {rest : List Char}
    (h : r.map f = .done b rest) : ∃ a, r = .done a rest ∧ f a = b := by
  obtain ⟨a, mid, hr, hf⟩ := bind_eq_done h
  simp only [Reading.done.injEq] at hf
  exact ⟨a, hf.2 ▸ hr, hf.1⟩

theorem readWhole_shorter {cs rest digits : List Char} (h : readWhole cs = .done digits rest) :
    rest.length < cs.length := by
  unfold readWhole at h
  split at h
  · split at h
    · simp at h
    · simp only [Reading.done.injEq] at h
      simp [← h.2]
  · exact readDigits_shorter h

theorem readFraction_length_le {cs rest text : List Char} (h : readFraction cs = .done text rest) :
    rest.length ≤ cs.length := by
  unfold readFraction at h
  split at h
  · obtain ⟨_, hd, _⟩ := Reading.map_eq_done h
    have := readDigits_shorter hd
    simp only [List.length_cons]
    omega
  · simp only [Reading.done.injEq] at h
    simp [← h.2]

theorem readExponent_length_le {cs rest text : List Char} (h : readExponent cs = .done text rest) :
    rest.length ≤ cs.length := by
  unfold readExponent at h
  split at h
  · split at h
    · split at h
      · split at h <;>
        · obtain ⟨_, hd, _⟩ := Reading.map_eq_done h
          have := readDigits_shorter hd
          simp only [List.length_cons] at *
          omega
      · simp at h
    · simp only [Reading.done.injEq] at h
      simp [← h.2]
  · simp only [Reading.done.injEq] at h
    simp [← h.2]

theorem readNumber_shorter {cs rest : List Char} {token : Token}
    (h : readNumber cs = .done token rest) : rest.length < cs.length := by
  have body : ∀ sign unsigned, unsigned.length ≤ cs.length →
      ((readWhole unsigned).bind fun whole r =>
        (readFraction r).bind fun fraction r =>
        (readExponent r).bind fun exponent r =>
          if r.head?.any sticksToNumber then .fault (.digitExpected r.head?) r
          else
            let text := String.ofList (sign ++ whole ++ fraction ++ exponent)
            if fraction.isEmpty && exponent.isEmpty then Reading.done (Token.int text) r
            else .done (.float text) r) = .done token rest → rest.length < cs.length := by
    intro sign unsigned hle hr
    obtain ⟨_, r₁, hw, hr⟩ := Reading.bind_eq_done hr
    obtain ⟨_, r₂, hf, hr⟩ := Reading.bind_eq_done hr
    obtain ⟨_, r₃, he, hr⟩ := Reading.bind_eq_done hr
    have h₁ := readWhole_shorter hw
    have h₂ := readFraction_length_le hf
    have h₃ := readExponent_length_le he
    have : r₃ = rest := by
      split at hr
      · simp at hr
      · dsimp only at hr
        split at hr <;> · simp only [Reading.done.injEq] at hr; exact hr.2
    subst this
    omega
  unfold readNumber at h
  split at h
  rename_i sign unsigned hsplit
  refine body sign unsigned ?_ h
  split at hsplit
  · simp only [Prod.mk.injEq] at hsplit
    simp [← hsplit.2]
  · simp only [Prod.mk.injEq] at hsplit
    simp [← hsplit.2]

theorem readString_shorter {cs rest text : List Char} (h : readString cs = .done text rest) :
    rest.length < cs.length := by
  fun_induction readString cs generalizing text with
  | case1 => simp at h
  | case2 c cs =>
    simp only [Reading.done.injEq] at h
    simp [← h.2]
  | case3 c cs _ _ character size _ ih =>
    obtain ⟨_, hr, _⟩ := Reading.map_eq_done h
    have := ih hr
    simp only [List.length_drop, List.length_cons] at *
    omega
  | case4 => simp at h
  | case5 => simp at h
  | case6 c cs _ _ _ ih =>
    obtain ⟨_, hr, _⟩ := Reading.map_eq_done h
    have := ih hr
    simp only [List.length_cons]
    omega

theorem readBlock_shorter {cs rest text : List Char} (h : readBlock cs = .done text rest) :
    rest.length < cs.length := by
  fun_induction readBlock cs generalizing text with
  | case1 cs =>
    simp only [Reading.done.injEq] at h
    simp only [← h.2, List.length_cons]
    omega
  | case2 cs ih =>
    obtain ⟨_, hr, _⟩ := Reading.map_eq_done h
    have := ih hr
    simp only [List.length_cons]
    omega
  | case3 c cs _ _ ih =>
    obtain ⟨_, hr, _⟩ := Reading.map_eq_done h
    have := ih hr
    simp only [List.length_cons]
    omega
  | case4 => simp at h

theorem readAnyString_shorter {cs rest : List Char} {token : Token}
    (h : readAnyString cs = .done token rest) : rest.length < cs.length := by
  unfold readAnyString at h
  split at h
  · obtain ⟨_, hr, _⟩ := Reading.map_eq_done h
    have := readBlock_shorter hr
    simp only [List.length_cons]
    omega
  · obtain ⟨_, hr, _⟩ := Reading.map_eq_done h
    exact readString_shorter hr

theorem length_dropWhile_le {α : Type} (p : α → Bool) (xs : List α) :
    (xs.dropWhile p).length ≤ xs.length :=
  (List.dropWhile_sublist p).length_le

/-- A token at the front of a text that is not empty takes at least one character. -/
theorem next_shorter {c : Char} {cs rest : List Char} {token : Token}
    (h : next (c :: cs) = .done token rest) : rest.length < (c :: cs).length := by
  simp only [next] at h
  split at h
  · have := readAnyString_shorter h
    simp only [List.length_cons]
    omega
  · split at h
    · simp only [Reading.done.injEq] at h
      simp [← h.2]
    · split at h
      · exact readNumber_shorter h
      · split at h
        · rename_i hc
          simp only [Reading.done.injEq] at h
          have hcont : isNameContinue c = true := by simp [isNameContinue, hc]
          rw [← h.2, List.dropWhile_cons, if_pos hcont]
          have := length_dropWhile_le isNameContinue cs
          simp only [List.length_cons]
          omega
        · split at h
          · rename_i heq
            simp only [Reading.done.injEq] at h
            rw [heq, ← h.2]
            simp only [List.length_cons]
            omega
          · simp at h

end Lexer

/-! ## All tokens -/

/-- A token and the text from its first character on. -/
structure Lexeme where
  token : Token
  place : List Char
deriving Repr, Inhabited

/-- The tokens of a text, up to and including the end of the input or the first fault. -/
def lex (cs : List Char) : List Lexeme :=
  match _hs : Lexer.skipIgnored false cs with
  | [] => [⟨.endOfInput, []⟩]
  | c :: r =>
    match _hn : Lexer.next (c :: r) with
    | .done token rest => ⟨token, c :: r⟩ :: lex rest
    | .fault cause place => [⟨.invalid cause, place⟩]
termination_by cs.length
decreasing_by
  have h₁ := Lexer.skipIgnored_length_le false cs
  have h₂ := Lexer.next_shorter _hn
  rw [_hs] at h₁
  omega

/-- The tokens of a text without their places. -/
def tokens (cs : List Char) : List Token := (lex cs).map (·.token)

end ResolverWiring.Graphql
