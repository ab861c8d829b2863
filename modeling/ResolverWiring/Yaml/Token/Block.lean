import ResolverWiring.Yaml.Token

/-!
# `ResolverWiring.Yaml.Token.Block` — block scalars

A block scalar is a header line and the indented lines under it. Its style says whether line ends are
kept or folded; its header says how deep the lines are indented, if the first of them does not show
it, and what becomes of the line ends behind the last one.
-/

namespace ResolverWiring.Yaml

/-- The two styles of block scalars. -/
inductive BlockStyle where
  | literal
  | folded
deriving DecidableEq, Repr, Inhabited

/-- What becomes of the line ends behind the last line. -/
inductive Chomping where
  | strip
  | clip
  | keep
deriving DecidableEq, Repr, Inhabited

/-! ## The header -/

/-- The header of a block scalar; the indentation counts from that of the parent. -/
structure BlockHeader where
  chomping : Chomping
  indentation? : Option Nat
deriving DecidableEq, Repr, Inhabited

/-- The chomping sign in front, if there is one. -/
def takeChomping : List Char → Option Chomping × List Char
  | '+' :: cs => (some .keep, cs)
  | '-' :: cs => (some .strip, cs)
  | cs => (none, cs)

/-- The indentation in front, if there is one; it must not be zero. -/
def takeIndentation : List Char → Reading (Option Nat)
  | [] => .ok (none, [])
  | c :: cs =>
    if c == '0' then .error (.problem .scanningBlock .zeroIndentation (c :: cs))
    else if c.isDigit then .ok (some (c.toNat - '0'.toNat), cs)
    else .ok (none, c :: cs)

/-- The header in front; the two parts of it come in either order. -/
def takeHeader (cs : List Char) : Except Stop (BlockHeader × List Char) := do
  let (before?, cs) := takeChomping cs
  let (indentation?, cs) ← takeIndentation cs
  let (behind?, cs) := if before?.isSome then (none, cs)
    else if indentation?.isSome then takeChomping cs else (none, cs)
  if !atSpaceOrEnd cs then
    Stop.wanted .scanningBlock "chomping or indentation indicators" cs
  else
    let cs ← skipCommentLine .scanningBlock cs
    return (⟨(before? <|> behind?).getD .clip, indentation?⟩, cs)

/-! ## The lines -/

/-- Blank lines in front of the first line, and the blanks in front of it. -/
structure Lead where
  breaks : List Char
  /-- The column of the first line that is not blank. -/
  column : Nat
  /-- The deepest column that any of these lines reaches by spaces. -/
  deepest : Nat
  rest : List Char
deriving DecidableEq, Repr, Inhabited

/-- The lead of a text that starts at a column. -/
def takeLead (column deepest : Nat) : List Char → Lead
  | ' ' :: cs => takeLead (column + 1) (max deepest (column + 1)) cs
  | '\r' :: '\n' :: cs => behind '\n' (takeLead 0 deepest cs)
  | c :: cs =>
    if isBreak c then behind (breakChar c) (takeLead 0 deepest cs) else ⟨[], column, deepest, c :: cs⟩
  | [] => ⟨[], column, deepest, []⟩
where
  /-- Puts a line end in front. -/
  behind (c : Char) (lead : Lead) : Lead := { lead with breaks := c :: lead.breaks }

/-- Line ends, and the start of a line behind them. -/
structure LineStart where
  breaks : List Char
  /-- How many spaces of the line were passed over. -/
  column : Nat
  rest : List Char
deriving DecidableEq, Repr, Inhabited

/-- The line ends in front, when up to `indent` spaces in front of each and behind the last one are
passed over. -/
def takeBreaks (indent column : Nat) : List Char → LineStart
  | [] => ⟨[], column, []⟩
  | '\r' :: '\n' :: cs => behind '\n' (takeBreaks indent 0 cs)
  | c :: cs =>
    if c == ' ' && column < indent then takeBreaks indent (column + 1) cs
    else if isBreak c then behind (breakChar c) (takeBreaks indent 0 cs)
    else ⟨[], column, c :: cs⟩
where
  /-- Puts a line end in front. -/
  behind (c : Char) (start : LineStart) : LineStart := { start with breaks := c :: start.breaks }

theorem takeBreaks_length (indent column : Nat) (cs : List Char) :
    (takeBreaks indent column cs).rest.length ≤ cs.length := by
  fun_induction takeBreaks indent column cs with
  | case1 => simp
  | case2 column cs ih => simp only [takeBreaks.behind, List.length_cons]; omega
  | case3 column c cs _ _ ih => exact Nat.le_succ_of_le ih
  | case4 column c cs _ _ _ ih => simp only [takeBreaks.behind, List.length_cons]; omega
  | case5 => simp

/-- What stands between two lines, the first of which ends in `lineEnd`. -/
def joint (style : BlockStyle) (first second lineEnd blanks : List Char) : List Char :=
  let indented (line : List Char) : Bool := line.head?.any isBlank
  if style = .folded && lineEnd == ['\n'] && !indented first && !indented second then
    if blanks.isEmpty then [' '] else []
  else lineEnd

/-- The lines of a block scalar. -/
structure BlockLines where
  text : List Char
  /-- The end of the last line; empty if the text ends there. -/
  lastEnd : List Char
  /-- The line ends behind the last line. -/
  trailing : List Char
  rest : List Char
deriving DecidableEq, Repr, Inhabited

/-- The end of the line in front, if the text does not end there, and the text behind it. -/
def takeLineEnd (cs : List Char) : List Char × List Char :=
  match takeBreak? cs with
  | some (c, rest) => ([c], rest)
  | none => ([], cs)

theorem takeLineEnd_length (cs : List Char) : (takeLineEnd cs).2.length ≤ cs.length := by
  unfold takeLineEnd
  split
  · rename_i h
    exact Nat.le_of_lt (takeBreak?_length h)
  · exact Nat.le_refl _

/-- The lines in front, the first of them behind its indentation, when all are indented to `indent`. -/
def takeLines (style : BlockStyle) (indent : Nat) (cs : List Char) : BlockLines :=
  match _h : cs.takeWhile (!isBreak ·) with
  | [] => ⟨[], [], [], cs⟩
  | c :: line =>
    let lineEnd := takeLineEnd (skipLine cs)
    let next := takeBreaks indent 0 lineEnd.2
    if next.column = indent && !next.rest.isEmpty then
      let others := takeLines style indent next.rest
      let between := joint style (c :: line) next.rest lineEnd.1 next.breaks ++ next.breaks
      { others with text := c :: line ++ between ++ others.text }
    else ⟨c :: line, lineEnd.1, next.breaks, next.rest⟩
termination_by cs.length
decreasing_by
  have hcs := congrArg List.length (@List.takeWhile_append_dropWhile _ (!isBreak ·) cs)
  rw [_h, List.length_append, List.length_cons] at hcs
  have hnext := takeBreaks_length indent 0 (takeLineEnd (skipLine cs)).2
  have hend := takeLineEnd_length (skipLine cs)
  simp only [skipLine] at hend hnext ⊢
  omega

/-! ## Scalars -/

/-- The block scalar whose mark has been read, inside a parent that indents its items to
`minIndent`. -/
def takeBlock (style : BlockStyle) (minIndent : Nat) (cs : List Char) :
    Except Stop (List Char × List Char) := do
  let (header, cs) ← takeHeader cs
  let minIndent := max 1 minIndent
  let (indent, breaks, column, rest) := match header.indentation? with
    | none =>
      let lead := takeLead 0 0 cs
      (max minIndent lead.deepest, lead.breaks, lead.column, lead.rest)
    | some n =>
      let start := takeBreaks (minIndent + n - 1) 0 cs
      (minIndent + n - 1, start.breaks, start.column, start.rest)
  let lines : BlockLines :=
    if column = indent && !rest.isEmpty then
      let lines := takeLines style indent rest
      { lines with text := breaks ++ lines.text }
    else ⟨[], [], breaks, rest⟩
  let ending := match header.chomping with
    | .strip => []
    | .clip => lines.lastEnd
    | .keep => lines.lastEnd ++ lines.trailing
  return (lines.text ++ ending, lines.rest)

end ResolverWiring.Yaml
