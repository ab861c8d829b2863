import ResolverWiring.Yaml.Token

/-!
# `ResolverWiring.Yaml.Token.Plain` — scalars without quotes

A plain scalar is made of chunks without blanks, with gaps between them. A gap within a line is kept. A
gap over line ends is folded: one line end becomes a space, of several the first is dropped.

Inside flow collections more characters end a chunk, and the scalar may go on at any column; elsewhere
it goes on only on lines that are indented deeply enough.
-/

namespace ResolverWiring.Yaml

/-! ## Chunks -/

/-- The marks of flow collections. -/
def isFlowMark (c : Char) : Bool :=
  c == ',' || c == '[' || c == ']' || c == '{' || c == '}'

/-- Whether the character `c` ends a chunk when `cs` follows it. -/
def endsChunk (inFlow : Bool) (c : Char) (cs : List Char) : Bool :=
  isBlank c || isBreak c
    || (c == ':' && (atBlankOrEnd cs || (inFlow && cs.head?.any isFlowMark)))
    || (inFlow && (isFlowMark c || c == '?'))

/-- The chunk in front, which may be empty, and the text behind it. -/
def takeChunk (inFlow : Bool) : List Char → List Char × List Char
  | [] => ([], [])
  | c :: cs =>
    if endsChunk inFlow c cs then ([], c :: cs)
    else
      let (chunk, rest) := takeChunk inFlow cs
      (c :: chunk, rest)

theorem takeChunk_append (inFlow : Bool) (cs : List Char) :
    (takeChunk inFlow cs).1 ++ (takeChunk inFlow cs).2 = cs := by
  induction cs with
  | nil => rfl
  | cons c cs ih =>
    unfold takeChunk
    split
    · rfl
    · simpa using ih

/-! ## Gaps -/

/-- Line ends and spaces that are skipped. -/
structure LineSkip where
  /-- The line ends; `none` if a document marker ended the skipping. -/
  breaks? : Option (List Char)
  /-- The column reached. -/
  column : Nat
  rest : List Char
deriving DecidableEq, Repr, Inhabited

/-- The line ends and spaces in front, from the column given on. A document marker at the start of a
line ends them. -/
def skipLines (column : Nat) : List Char → LineSkip
  | ' ' :: cs => skipLines (column + 1) cs
  | '\r' :: '\n' :: cs => behind '\n' cs (skipLines 0 cs)
  | c :: cs =>
    if isBreak c then behind (breakChar c) cs (skipLines 0 cs) else ⟨some [], column, c :: cs⟩
  | [] => ⟨some [], column, []⟩
where
  /-- Puts a line end in front of what follows on the next line. -/
  behind (c : Char) (line : List Char) (following : LineSkip) : LineSkip :=
    if atDocumentMarker line then ⟨none, 0, line⟩
    else { following with breaks? := following.breaks?.map (c :: ·) }

theorem skipLines_length (column : Nat) (cs : List Char) :
    (skipLines column cs).rest.length ≤ cs.length := by
  fun_induction skipLines column cs with
  | case1 column cs ih => exact Nat.le_succ_of_le ih
  | case2 column cs ih =>
    simp only [skipLines.behind, List.length_cons]
    split <;> simp only <;> omega
  | case3 column c cs _ _ _ ih =>
    simp only [skipLines.behind, List.length_cons]
    split <;> simp only <;> omega
  | case4 column c cs => exact Nat.le_refl _
  | case5 column => exact Nat.le_refl _

/-- Folded line ends: `first` and those that follow it. -/
def fold (first : Char) (others : List Char) : List Char :=
  if first != '\n' then first :: others else if others.isEmpty then [' '] else others

/-- What follows a chunk. -/
structure Gap where
  /-- What the gap stands for in the scalar; empty if the scalar ends here. -/
  text : List Char
  /-- The column reached on a new line, if the gap spans a line end. -/
  column? : Option Nat
  rest : List Char
deriving DecidableEq, Repr, Inhabited

/-- The gap in front. In front of a document marker nothing goes on. -/
def takeGap (cs : List Char) : Gap :=
  let spaces := cs.takeWhile (· == ' ')
  let rest := skipSpaces cs
  match takeBreak? rest with
  | none => ⟨spaces, none, rest⟩
  | some (first, line) =>
    let skip := if atDocumentMarker line then ⟨none, 0, line⟩ else skipLines 0 line
    ⟨(skip.breaks?.map (fold first)).getD [], some skip.column, skip.rest⟩

theorem takeGap_length (cs : List Char) : (takeGap cs).rest.length ≤ cs.length := by
  have hspaces : (skipSpaces cs).length ≤ cs.length := by
    simpa [skipSpaces] using (List.dropWhile_sublist (· == ' ')).length_le
  unfold takeGap
  dsimp only
  split
  · exact hspaces
  · rename_i first line hline
    have hline := takeBreak?_length hline
    have := skipLines_length 0 line
    split <;> simp only <;> omega

/-! ## Scalars -/

/-- A plain scalar, whether a line end follows it directly or behind blanks, and the text behind. -/
structure Plain where
  text : List Char
  endsLine : Bool
  rest : List Char
deriving DecidableEq, Repr, Inhabited

/-- Whether a scalar goes on behind a gap. -/
def Gap.isInside (gap : Gap) (inFlow : Bool) (indent : Nat) : Bool :=
  !gap.text.isEmpty && gap.rest.head? != some '#' && (inFlow || gap.column?.all (indent ≤ ·))

/-- The rest of a plain scalar, behind `gap`; it goes on only at the column `indent` or further. -/
def takePlainFrom (inFlow : Bool) (indent : Nat) (gap : Gap) : Plain :=
  if !gap.isInside inFlow indent then ⟨[], gap.column?.isSome, gap.rest⟩
  else
    match _h : takeChunk inFlow gap.rest with
    | ([], rest) => ⟨[], gap.column?.isSome, rest⟩
    | (c :: chunk, rest) =>
      let others := takePlainFrom inFlow indent (takeGap rest)
      { others with text := gap.text ++ c :: chunk ++ others.text }
termination_by gap.rest.length
decreasing_by
  have happend := takeChunk_append inFlow gap.rest
  rw [_h] at happend
  have := takeGap_length rest
  simp only [← happend, List.length_append, List.length_cons]
  omega

/-- The plain scalar in front. -/
def takePlain (inFlow : Bool) (indent : Nat) (cs : List Char) : Plain :=
  let (chunk, rest) := takeChunk inFlow cs
  let others := takePlainFrom inFlow indent (takeGap rest)
  { others with text := chunk ++ others.text }

end ResolverWiring.Yaml
