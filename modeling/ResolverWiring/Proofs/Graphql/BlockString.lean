import Mathlib.Data.List.TakeWhile
import ResolverWiring.Proofs.Text.Lines
import ResolverWiring.Graphql.Token.Lexer

/-!
# `Proofs.Graphql.BlockString` — block strings are read as they are written

The text of a block string has no indentation that all its lines share, and starts and ends with a line
that is not blank (`IsDedented`): that is what `dedent` leaves. Written again, at any depth, such a text
gains quotes, perhaps a line in front and behind, and an indentation, and all of it is lost in reading:

* `dedent_isDedented`: what is read is dedented;
* `dedent_indentLines`: the indentation of the written form does not reach the text;
* `readBlock_escapeQuotes`: the backslashes in front of quotes do not reach the text either;
* `readBlock_write`: the two together.
-/

namespace ResolverWiring.Graphql.BlockString

open ResolverWiring.Text

variable {line : List Char} {lines : List (List Char)}

/-! ## Common indentation -/

theorem isBlank_append_indentation (depth : Nat) (line : List Char) :
    isBlank (indentation depth ++ line) = isBlank line := by
  have : (indentation depth).all isIndent = true := by
    simp [indentation, isIndent]
  rw [isBlank, List.all_append, this, Bool.true_and]
  rfl

theorem indentOf_append_indentation (depth : Nat) (line : List Char) :
    indentOf (indentation depth ++ line) = 2 * depth + indentOf line := by
  have : ∀ c ∈ indentation depth, isIndent c = true := by
    intro c hc
    rw [List.eq_of_mem_replicate hc]
    rfl
  rw [indentOf, List.takeWhile_append_of_pos this, List.length_append]
  simp [indentation, indentOf]

/-- The common indentation is that of a line that is not blank and of which no other one has less. -/
theorem commonIndent_eq {n : Nat} (hmem : ∃ line ∈ lines, isBlank line = false ∧ indentOf line = n)
    (hle : ∀ line ∈ lines, isBlank line = false → n ≤ indentOf line) : commonIndent lines = n := by
  have hmin : ((lines.filter (!isBlank ·)).map indentOf).min? = some n := by
    rw [List.min?_eq_some_iff]
    constructor
    · obtain ⟨line, hline, hblank, hn⟩ := hmem
      exact List.mem_map.mpr ⟨line, List.mem_filter.mpr ⟨hline, by simp [hblank]⟩, hn⟩
    · intro m hm
      obtain ⟨line, hline, rfl⟩ := List.mem_map.mp hm
      obtain ⟨hline, hblank⟩ := List.mem_filter.mp hline
      exact hle line hline (by simpa using hblank)
  rw [commonIndent, hmin]
  rfl

theorem exists_commonIndent (h : ∃ line ∈ lines, isBlank line = false) :
    (∃ line ∈ lines, isBlank line = false ∧ indentOf line = commonIndent lines) ∧
      ∀ line ∈ lines, isBlank line = false → commonIndent lines ≤ indentOf line := by
  obtain ⟨line, hline, hblank⟩ := h
  have hmem : indentOf line ∈ (lines.filter (!isBlank ·)).map indentOf :=
    List.mem_map_of_mem (List.mem_filter.mpr ⟨hline, by simp [hblank]⟩)
  cases hmin : ((lines.filter (!isBlank ·)).map indentOf).min? with
  | none =>
    rw [List.min?_eq_none_iff] at hmin
    rw [hmin] at hmem
    cases hmem
  | some n =>
    have hn : commonIndent lines = n := by rw [commonIndent, hmin]; rfl
    obtain ⟨hn', hle⟩ := List.min?_eq_some_iff.mp hmin
    obtain ⟨least, hleast, hindent⟩ := List.mem_map.mp hn'
    obtain ⟨hleast, hblank'⟩ := List.mem_filter.mp hleast
    refine ⟨⟨least, hleast, by simpa using hblank', by rw [hindent, hn]⟩, fun l hl hb => ?_⟩
    rw [hn]
    exact hle _ (List.mem_map_of_mem (List.mem_filter.mpr ⟨hl, by simp [hb]⟩))

/-- Blanks taken from the indentation of a line leave it a line that is not blank. -/
theorem drop_indent {n : Nat} (h : n ≤ indentOf line) :
    isBlank (line.drop n) = isBlank line ∧ indentOf (line.drop n) = indentOf line - n := by
  induction n generalizing line with
  | zero => exact ⟨rfl, rfl⟩
  | succ n ih =>
    cases line with
    | nil => cases h
    | cons c line =>
      by_cases hc : isIndent c = true
      · have hindent : indentOf (c :: line) = indentOf line + 1 := by
          simp [indentOf, hc]
        have hblank : isBlank (c :: line) = isBlank line := by simp [isBlank, hc]
        rw [List.drop_succ_cons, hindent, hblank, Nat.add_sub_add_right]
        exact ih (by omega)
      · have hindent : indentOf (c :: line) = 0 := by
          simp [indentOf, hc]
        rw [hindent] at h
        cases h

/-! ## Dropping blank lines -/

theorem head?_dropWhile_blank (lines : List (List Char)) :
    ∀ line ∈ (lines.dropWhile isBlank).head?, isBlank line = false := by
  intro line hline
  have := List.head?_dropWhile_not isBlank lines
  rw [Option.mem_def.mp hline] at this
  simpa using this

theorem getLast?_dropTrailingBlank (lines : List (List Char)) :
    ∀ line ∈ (dropTrailingBlank lines).getLast?, isBlank line = false := by
  rw [dropTrailingBlank, List.getLast?_reverse]
  exact head?_dropWhile_blank lines.reverse

/-- Blank lines behind a line that is not blank are dropped, and nothing else. -/
theorem dropTrailingBlank_append {blanks : List (List Char)}
    (hlast : ∀ line ∈ lines.getLast?, isBlank line = false)
    (hblanks : ∀ line ∈ blanks, isBlank line = true) :
    dropTrailingBlank (lines ++ blanks) = lines := by
  rw [dropTrailingBlank, List.reverse_append,
    List.dropWhile_append_of_pos fun line h => hblanks line (List.mem_reverse.mp h)]
  cases hrev : lines.reverse with
  | nil => rw [List.reverse_eq_nil_iff.mp hrev]; rfl
  | cons last front =>
    have hmem : last ∈ lines.getLast? := by
      rw [List.getLast?_eq_head?_reverse, hrev]
      rfl
    rw [List.dropWhile_cons, hlast last hmem, if_neg Bool.false_ne_true, ← hrev,
      List.reverse_reverse]

theorem dropTrailingBlank_cons (hline : isBlank line = false) (lines : List (List Char)) :
    dropTrailingBlank (line :: lines) = line :: dropTrailingBlank lines := by
  rw [dropTrailingBlank, List.reverse_cons, List.dropWhile_append]
  split
  · rename_i h
    rw [List.isEmpty_iff] at h
    rw [dropTrailingBlank, h, List.dropWhile_cons, hline, if_neg Bool.false_ne_true]
    rfl
  · rw [List.reverse_append]
    rfl

/-! ## Dedented texts -/

/-- The lines of a dedented text. A single line may keep an indentation: the first line of a block
string is never dedented. -/
structure Settled (lines : List (List Char)) : Prop where
  isLine : ∀ line ∈ lines, IsLine line
  first : ∀ line ∈ lines.head?, isBlank line = false
  last : ∀ line ∈ lines.getLast?, isBlank line = false
  indent : 2 ≤ lines.length → ∃ line ∈ lines, isBlank line = false ∧ indentOf line = 0

/-- A text as reading a block string yields it. -/
def IsDedented (text : List Char) : Prop := ∃ lines, Settled lines ∧ text = joinLines lines

theorem isLine_drop (h : IsLine line) (n : Nat) : IsLine (line.drop n) :=
  fun c hc => h c (List.mem_of_mem_drop hc)

theorem dropTrailingBlank_subset (lines : List (List Char)) :
    ∀ line ∈ dropTrailingBlank lines, line ∈ lines := by
  intro line h
  rw [dropTrailingBlank, List.mem_reverse] at h
  exact List.mem_reverse.mp ((List.dropWhile_sublist _).subset h)

theorem mem_dropWhile_blank (hline : isBlank line = false) (h : line ∈ lines) :
    line ∈ lines.dropWhile isBlank := by
  induction lines with
  | nil => cases h
  | cons first others ih =>
    cases hfirst : isBlank first with
    | true =>
      rw [List.dropWhile_cons, hfirst, if_pos rfl]
      rcases List.mem_cons.mp h with rfl | h
      · rw [hfirst] at hline
        cases hline
      · exact ih h
    | false =>
      rw [List.dropWhile_cons, hfirst, if_neg Bool.false_ne_true]
      exact h

/-- A line that is not blank is not dropped at either end. -/
theorem mem_trimmed (hline : isBlank line = false) (h : line ∈ lines) :
    line ∈ dropTrailingBlank (lines.dropWhile isBlank) :=
  List.mem_reverse.mpr <| mem_dropWhile_blank hline <| List.mem_reverse.mpr <|
    mem_dropWhile_blank hline h

theorem trimmed_eq_nil (h : ∀ line ∈ lines, isBlank line = true) :
    dropTrailingBlank (lines.dropWhile isBlank) = [] := by
  have hnil : lines.dropWhile isBlank = [] := List.dropWhile_eq_nil_iff.mpr h
  rw [hnil]
  rfl

theorem isBlank_drop (h : isBlank line = true) (n : Nat) : isBlank (line.drop n) = true :=
  List.all_eq_true.mpr fun c hc => List.all_eq_true.mp h c (List.mem_of_mem_drop hc)

theorem isBlank_of_mem_drop {blanks : List (List Char)} (h : ∀ line ∈ blanks, isBlank line = true) (n : Nat) :
    ∀ line ∈ blanks.map (·.drop n), isBlank line = true := by
  intro line hline
  obtain ⟨l, hl, rfl⟩ := List.mem_map.mp hline
  exact isBlank_drop (h l hl) n

/-- Of a line and the blank ones behind it, the line is left. -/
theorem dropTrailingBlank_single {blanks : List (List Char)} (hline : isBlank line = false)
    (hblanks : ∀ line ∈ blanks, isBlank line = true) : dropTrailingBlank (line :: blanks) = [line] := by
  have hlast : ∀ l ∈ [line].getLast?, isBlank l = false := by
    intro l hl
    cases hl
    exact hline
  exact dropTrailingBlank_append hlast hblanks

/-- A single line directly behind the quotes keeps its indentation. -/
theorem dedentLines_single {blanks : List (List Char)} (hline : isBlank line = false)
    (hblanks : ∀ line ∈ blanks, isBlank line = true) : dedentLines (line :: blanks) = [line] := by
  rw [dedentLines, List.dropWhile_cons, hline, if_neg Bool.false_ne_true]
  exact dropTrailingBlank_single hline (isBlank_of_mem_drop hblanks _)

/-- Of several lines that are left, one has no indentation. -/
theorem exists_unindented {first : List Char} {rest : List (List Char)}
    (h : 2 ≤ (dedentLines (first :: rest)).length) :
    ∃ line ∈ dedentLines (first :: rest), isBlank line = false ∧ indentOf line = 0 := by
  by_cases hsome : ∃ line ∈ rest, isBlank line = false
  · -- the one whose indentation is the common one
    obtain ⟨⟨line, hline, hblank, hindent⟩, -⟩ := exists_commonIndent hsome
    obtain ⟨hblank', hindent'⟩ := drop_indent (Nat.le_of_eq hindent.symm)
    refine ⟨line.drop (commonIndent rest), mem_trimmed (by rw [hblank', hblank]) ?_,
      by rw [hblank', hblank], by rw [hindent', hindent, Nat.sub_self]⟩
    exact List.mem_cons_of_mem first (List.mem_map_of_mem hline)
  · -- only the first line can be left
    have hblanks : ∀ line ∈ rest, isBlank line = true := by
      simpa using hsome
    cases hb : isBlank first with
    | true =>
      have hnil : dedentLines (first :: rest) = [] :=
        trimmed_eq_nil (List.forall_mem_cons.mpr ⟨hb, isBlank_of_mem_drop hblanks _⟩)
      rw [hnil] at h
      cases h
    | false =>
      rw [dedentLines_single hb hblanks] at h
      exact absurd h (Nat.not_succ_le_self 1)

/-- What is left of lines without their common indentation and the blank lines at both ends. -/
theorem dedentLines_settled (h : ∀ line ∈ lines, IsLine line) : Settled (dedentLines lines) := by
  cases lines with
  | nil =>
    exact ⟨fun _ h => (by cases h), fun _ h => (by cases h), fun _ h => (by cases h),
      fun h => (by cases h)⟩
  | cons first rest =>
    obtain ⟨hfirst, hrest⟩ := List.forall_mem_cons.mp h
    have hlines : ∀ line ∈ first :: rest.map (·.drop (commonIndent rest)), IsLine line := by
      refine List.forall_mem_cons.mpr ⟨hfirst, fun line hline => ?_⟩
      obtain ⟨l, hl, rfl⟩ := List.mem_map.mp hline
      exact isLine_drop (hrest l hl) _
    refine ⟨fun line hline => ?_, ?_, getLast?_dropTrailingBlank _, exists_unindented⟩
    · exact hlines line ((List.dropWhile_sublist _).subset (dropTrailingBlank_subset _ line hline))
    · have hhead := head?_dropWhile_blank (first :: rest.map (·.drop (commonIndent rest)))
      show ∀ line ∈ (dropTrailingBlank (List.dropWhile isBlank _)).head?, _
      cases hdrop : (first :: rest.map (·.drop (commonIndent rest))).dropWhile isBlank with
      | nil => intro line hline; cases hline
      | cons d ds =>
        rw [hdrop] at hhead
        rw [dropTrailingBlank_cons (hhead d rfl)]
        exact hhead

/-- What is read is dedented. -/
theorem dedent_isDedented (written : List Char) : IsDedented (dedent written) :=
  ⟨_, dedentLines_settled (isLine_of_mem_splitLines written), rfl⟩

/-! ## The indentation of the written form -/

theorem isLine_indentation (depth : Nat) (h : IsLine line) : IsLine (indentation depth ++ line) := by
  refine isLine_append.mpr ⟨fun c hc => ?_, h⟩
  rw [List.eq_of_mem_replicate hc]
  rfl

/-- Of lines that are joined and indented, all but the first are indented. -/
theorem splitLines_indentLines (depth : Nat) {first : List Char} (h : ∀ line ∈ first :: lines, IsLine line) :
    splitLines (indentLines depth (joinLines (first :: lines))) = first :: lines.map (indentation depth ++ ·) := by
  obtain ⟨hfirst, hlines⟩ := List.forall_mem_cons.mp h
  have hindented : ∀ line ∈ first :: lines.map (indentation depth ++ ·), IsLine line := by
    refine List.forall_mem_cons.mpr ⟨hfirst, fun line hline => ?_⟩
    obtain ⟨l, hl, rfl⟩ := List.mem_map.mp hline
    exact isLine_indentation depth (hlines l hl)
  rw [indentLines_joinLines depth h]
  exact splitLines_joinLines hindented (List.cons_ne_nil _ _)

theorem isBlank_indentation (depth : Nat) : isBlank (indentation depth) = true := by
  have := isBlank_append_indentation depth []
  rwa [List.append_nil] at this

/-- Settled lines, of which one has no indentation, behind an empty line: the indentation of the
written form is what they have in common. -/
theorem dedentLines_behind_empty (h : Settled lines) (depth : Nat) {blanks : List (List Char)}
    (hindent : lines ≠ [] → ∃ line ∈ lines, isBlank line = false ∧ indentOf line = 0)
    (hblanks : ∀ line ∈ blanks, isBlank line = true ∧ line.drop (2 * depth) = []) :
    dedentLines ([] :: (lines.map (indentation depth ++ ·) ++ blanks)) = lines := by
  have hdrop : ∀ line, (indentation depth ++ line).drop (2 * depth) = line := by
    intro line
    exact List.drop_left' (List.length_replicate)
  by_cases hne : lines = []
  · -- no line has an indentation to lose, but all of them are blank
    subst hne
    exact trimmed_eq_nil (List.forall_mem_cons.mpr ⟨rfl, isBlank_of_mem_drop (fun line hline => (hblanks line hline).1) _⟩)
  · obtain ⟨least, hleast, hblank, hzero⟩ := hindent hne
    have hcommon : commonIndent (lines.map (indentation depth ++ ·) ++ blanks) = 2 * depth := by
      refine commonIndent_eq ⟨indentation depth ++ least, ?_, ?_, ?_⟩ fun line hline hb => ?_
      · exact List.mem_append_left _ (List.mem_map_of_mem hleast)
      · rw [isBlank_append_indentation, hblank]
      · rw [indentOf_append_indentation, hzero]
        rfl
      · rcases List.mem_append.mp hline with hline | hline
        · obtain ⟨l, -, rfl⟩ := List.mem_map.mp hline
          rw [indentOf_append_indentation]
          exact Nat.le_add_right _ _
        · rw [(hblanks line hline).1] at hb
          cases hb
    have hlines : (lines.map (indentation depth ++ ·) ++ blanks).map (·.drop (2 * depth))
        = lines ++ blanks.map fun _ => [] := by
      rw [List.map_append, List.map_map]
      congr 1
      · exact (List.map_congr_left fun line _ => hdrop line).trans (List.map_id lines)
      · exact List.map_congr_left fun line hline => (hblanks line hline).2
    rw [dedentLines, hcommon, hlines]
    cases lines with
    | nil => exact absurd rfl hne
    | cons first others =>
      -- of the blank lines, the empty one in front goes first
      rw [List.dropWhile_cons, if_pos (show isBlank [] = true from rfl), List.cons_append,
        List.dropWhile_cons, h.first first rfl, if_neg Bool.false_ne_true, ← List.cons_append]
      refine dropTrailingBlank_append h.last fun line hline => ?_
      obtain ⟨_, _, rfl⟩ := List.mem_map.mp hline
      rfl

theorem joinLines_append_empty (hne : lines ≠ []) :
    joinLines (lines ++ [[]]) = joinLines lines ++ ['\n'] := by
  induction lines with
  | nil => exact absurd rfl hne
  | cons first others ih =>
    cases others with
    | nil => simp [joinLines_singleton, joinLines_cons_cons]
    | cons second others =>
      rw [joinLines_cons_cons, List.cons_append, List.cons_append, joinLines_cons_cons,
        ← List.cons_append, ih (List.cons_ne_nil second others), List.append_assoc]
      rfl

/-- Whether or not a line feed follows lines, they are joined with blank lines behind them. -/
theorem joinLines_append_after {after : List Char} (hafter : after = [] ∨ after = ['\n'])
    (hne : lines ≠ []) :
    ∃ blanks, (∀ line ∈ blanks, line = []) ∧ joinLines lines ++ after = joinLines (lines ++ blanks) := by
  rcases hafter with rfl | rfl
  · exact ⟨[], fun _ h => (by cases h), by rw [List.append_nil, List.append_nil]⟩
  · exact ⟨[[]], List.forall_mem_singleton.mpr rfl, (joinLines_append_empty hne).symm⟩

theorem isLine_of_append_blanks {blanks : List (List Char)} (h : ∀ line ∈ lines, IsLine line)
    (hblanks : ∀ line ∈ blanks, line = []) : ∀ line ∈ lines ++ blanks, IsLine line := by
  intro line hline
  rcases List.mem_append.mp hline with hline | hline
  · exact h line hline
  · rw [hblanks line hline]
    exact isLine_nil

theorem blank_indented {blanks : List (List Char)} (depth : Nat)
    (hblanks : ∀ line ∈ blanks, line = []) :
    ∀ line ∈ blanks.map (indentation depth ++ ·),
      isBlank line = true ∧ line.drop (2 * depth) = [] := by
  intro line hline
  obtain ⟨l, hl, rfl⟩ := List.mem_map.mp hline
  rw [hblanks l hl, List.append_nil]
  exact ⟨isBlank_indentation depth, List.drop_eq_nil_of_le (by simp [indentation])⟩

/-- The written form with a line feed in front, indented, is read as the text. -/
theorem dedent_indentLines_newline (h : Settled lines) (depth : Nat) {after : List Char}
    (hafter : after = [] ∨ after = ['\n']) (hne : lines ≠ [])
    (hindent : ∃ line ∈ lines, isBlank line = false ∧ indentOf line = 0) :
    dedent (indentLines depth ('\n' :: (joinLines lines ++ after))) = joinLines lines := by
  obtain ⟨blanks, hblanks, hjoin⟩ := joinLines_append_after hafter hne
  have hwritten : '\n' :: (joinLines lines ++ after) = joinLines ([] :: (lines ++ blanks)) := by
    rw [hjoin]
    cases lines with
    | nil => exact absurd rfl hne
    | cons first others => exact (joinLines_cons_cons [] first (others ++ blanks)).symm
  have hlines : ∀ line ∈ [] :: (lines ++ blanks), IsLine line :=
    List.forall_mem_cons.mpr ⟨isLine_nil, isLine_of_append_blanks h.isLine hblanks⟩
  rw [dedent, hwritten, splitLines_indentLines depth hlines, List.map_append,
    dedentLines_behind_empty h depth (fun _ => hindent) (blank_indented depth hblanks)]

/-- The written form of a single line directly behind the quotes is read as the text. -/
theorem dedent_indentLines_single (hline : IsLine line) (hblank : isBlank line = false)
    (depth : Nat) {after : List Char} (hafter : after = [] ∨ after = ['\n']) :
    dedent (indentLines depth (line ++ after)) = line := by
  obtain ⟨blanks, hblanks, hjoin⟩ :=
    joinLines_append_after hafter (List.cons_ne_nil line [])
  rw [joinLines_singleton] at hjoin
  have hlines : ∀ l ∈ line :: blanks, IsLine l :=
    isLine_of_append_blanks (List.forall_mem_singleton.mpr hline) hblanks
  rw [dedent, hjoin]
  show joinLines (dedentLines (splitLines (indentLines depth (joinLines (line :: blanks))))) = line
  rw [splitLines_indentLines depth hlines,
    dedentLines_single hblank fun l hl => (blank_indented depth hblanks l hl).1,
    joinLines_singleton]

/-! ## Quotes inside the text -/

variable {cs : List Char}

theorem escapeQuotes_cons {c : Char} (h : c = '"' → ∀ cs', cs ≠ '"' :: '"' :: cs') :
    escapeQuotes (c :: cs) = c :: escapeQuotes cs :=
  escapeQuotes.eq_2 c cs fun cs' hc hcs => h hc cs' hcs

theorem escapeQuotes_append_newline (cs cs' : List Char) :
    escapeQuotes (cs ++ '\n' :: cs') = escapeQuotes cs ++ '\n' :: escapeQuotes cs' := by
  fun_induction escapeQuotes cs with
  | case1 cs ih => exact congrArg ('\\' :: '"' :: '"' :: '"' :: ·) ih
  | case2 c cs hcs ih =>
    rw [List.cons_append, escapeQuotes_cons, ih]
    · rfl
    · intro hc
      cases cs with
      | nil => intro cs'' h; cases h
      | cons d cs =>
        cases cs with
        | nil => intro cs'' h; cases h
        | cons e cs => intro cs'' h; cases h; exact hcs cs hc rfl
  | case3 => exact escapeQuotes_cons fun h => absurd h (by decide)

theorem indentLines_eq_quotes {depth : Nat} {cs' : List Char}
    (h : indentLines depth cs = '"' :: '"' :: cs') : ∃ cs'', cs = '"' :: '"' :: cs'' := by
  cases cs with
  | nil => cases h
  | cons c cs =>
    by_cases hc : c = '\n'
    · subst hc
      cases h
    · rw [indentLines_cons depth hc, List.cons.injEq] at h
      obtain ⟨rfl, h⟩ := h
      cases cs with
      | nil => cases h
      | cons d cs =>
        by_cases hd : d = '\n'
        · subst hd
          cases h
        · rw [indentLines_cons depth hd, List.cons.injEq] at h
          exact ⟨cs, by rw [h.1]⟩

theorem escapeQuotes_of_not_mem (h : '"' ∉ cs) (cs' : List Char) :
    escapeQuotes (cs ++ cs') = cs ++ escapeQuotes cs' := by
  induction cs with
  | nil => rfl
  | cons c cs ih =>
    rw [List.mem_cons, not_or] at h
    rw [List.cons_append, escapeQuotes_cons (fun hq => absurd hq.symm h.1), ih h.2]
    rfl

/-- Quotes are escaped alike before and after lines are indented. -/
theorem indentLines_escapeQuotes (depth : Nat) (cs : List Char) :
    indentLines depth (escapeQuotes cs) = escapeQuotes (indentLines depth cs) := by
  fun_induction escapeQuotes cs with
  | case1 cs ih =>
    rw [indentLines_cons _ (by decide), indentLines_cons _ (by decide),
      indentLines_cons _ (by decide), indentLines_cons _ (by decide), ih,
      indentLines_cons _ (by decide), indentLines_cons _ (by decide),
      indentLines_cons _ (by decide)]
    rfl
  | case2 c cs hcs ih =>
    by_cases hc : c = '\n'
    · -- the indentation behind a line feed holds no quotes
      subst hc
      rw [indentLines_newline, indentLines_newline, ih]
      rw [escapeQuotes_cons fun h => absurd h (by decide), escapeQuotes_of_not_mem]
      intro h
      have := List.eq_of_mem_replicate h
      cases this
    · rw [indentLines_cons depth hc, indentLines_cons depth hc, ih, escapeQuotes_cons]
      intro hq cs' h
      obtain ⟨cs'', rfl⟩ := indentLines_eq_quotes h
      exact hcs cs'' hq rfl
  | case3 => rfl

/-- A quote in front of an escaped text is one of the text itself, and no three of them stand there. -/
theorem of_escapeQuotes_eq_quote {tail front : List Char} (hne : cs ≠ [])
    (h : escapeQuotes cs ++ tail = '"' :: front) :
    ∃ cs', cs = '"' :: cs' ∧ front = escapeQuotes cs' ++ tail ∧ ∀ cs'', cs' ≠ '"' :: '"' :: cs'' := by
  fun_cases escapeQuotes cs with
  | case1 cs' => cases h
  | case2 c cs' hcs =>
    rw [escapeQuotes_cons fun hc cs'' hcs' => hcs cs'' hc hcs', List.cons_append,
      List.cons.injEq] at h
    obtain ⟨rfl, rfl⟩ := h
    exact ⟨cs', rfl, rfl, fun cs'' hcs' => hcs cs'' rfl hcs'⟩
  | case3 => exact absurd rfl hne

theorem forall_getLast?_behind {P : Char → Prop} (front : List Char) (h : ∀ c ∈ (front ++ cs).getLast?, P c) :
    ∀ c ∈ cs.getLast?, P c := by
  intro c hc
  refine h c ?_
  rw [List.getLast?_append, Option.mem_def.mp hc]
  rfl

/-- An escaped text between quotes is read as the text, if it does not end in a character that runs into
the closing quotes. -/
theorem readBlock_escapeQuotes (cs rest : List Char)
    (hlast : ∀ c ∈ cs.getLast?, c ≠ '"' ∧ c ≠ '\\') :
    Lexer.readBlock (escapeQuotes cs ++ '"' :: '"' :: '"' :: rest) = .done cs rest := by
  fun_induction escapeQuotes cs with
  | case1 cs ih =>
    have hcs := forall_getLast?_behind ['"', '"', '"'] hlast
    show (Lexer.readBlock (escapeQuotes cs ++ '"' :: '"' :: '"' :: rest)).map _ = _
    rw [ih hcs]
    rfl
  | case2 c cs hcs ih =>
    have htail := forall_getLast?_behind [c] hlast
    have hend : cs = [] → c ≠ '"' ∧ c ≠ '\\' := by
      rintro rfl
      exact hlast c rfl
    -- neither the closing quotes nor an escape can start at `c`
    have hclose : ∀ cs', c = '"' →
        escapeQuotes cs ++ '"' :: '"' :: '"' :: rest ≠ '"' :: '"' :: cs' := by
      rintro cs' rfl h
      obtain ⟨cs₁, rfl, h₁, -⟩ := of_escapeQuotes_eq_quote (fun hnil => (hend hnil).1 rfl) h
      obtain ⟨cs₂, rfl, -, -⟩ := of_escapeQuotes_eq_quote
        (fun hnil => (htail '"' (by rw [hnil]; rfl)).1 rfl) h₁.symm
      exact hcs cs₂ rfl rfl
    have hescape : ∀ cs', c = '\\' →
        escapeQuotes cs ++ '"' :: '"' :: '"' :: rest ≠ '"' :: '"' :: '"' :: cs' := by
      rintro cs' rfl h
      obtain ⟨cs₁, rfl, h₁, hno⟩ := of_escapeQuotes_eq_quote (fun hnil => (hend hnil).2 rfl) h
      obtain ⟨cs₂, rfl, h₂, -⟩ := of_escapeQuotes_eq_quote
        (fun hnil => (htail '"' (by rw [hnil]; rfl)).1 rfl) h₁.symm
      obtain ⟨cs₃, rfl, -, -⟩ := of_escapeQuotes_eq_quote
        (fun hnil => (htail '"' (by rw [hnil]; rfl)).1 rfl) h₂.symm
      exact hno cs₃ rfl
    rw [List.cons_append, Lexer.readBlock.eq_3 c _ hclose hescape, ih htail]
    rfl
  | case3 => rfl

/-! ## The written form -/

theorem mem_escapeQuotes {c : Char} (h : c ∈ escapeQuotes cs) : c ∈ cs ∨ c = '\\' := by
  fun_induction escapeQuotes cs with
  | case1 cs ih =>
    simp only [List.mem_cons] at h ⊢
    rcases h with h | h | h | h | h
    · exact .inr h
    · exact .inl (.inl h)
    · exact .inl (.inl h)
    · exact .inl (.inl h)
    · exact (ih h).imp (fun h => .inr (.inr (.inr h))) id
  | case2 c' cs _ ih =>
    rcases List.mem_cons.mp h with rfl | h
    · exact .inl List.mem_cons_self
    · exact (ih h).imp (List.mem_cons_of_mem c') id
  | case3 => cases h

theorem isLine_escapeQuotes (h : IsLine cs) : IsLine (escapeQuotes cs) := by
  intro c hc
  rcases mem_escapeQuotes hc with hc | rfl
  · exact h c hc
  · rfl

/-- The lines of a text are escaped one by one. -/
theorem splitLines_escapeQuotes (h : ∀ line ∈ lines, IsLine line) (hne : lines ≠ []) :
    splitLines (escapeQuotes (joinLines lines)) = lines.map escapeQuotes := by
  induction lines with
  | nil => exact absurd rfl hne
  | cons first others ih =>
    obtain ⟨hfirst, hothers⟩ := List.forall_mem_cons.mp h
    cases others with
    | nil =>
      rw [joinLines_singleton, splitLines_of_isLine (isLine_escapeQuotes hfirst)]
      rfl
    | cons second others =>
      rw [joinLines_cons_cons, escapeQuotes_append_newline,
        splitLines_append_newline (isLine_escapeQuotes hfirst), ih hothers (List.cons_ne_nil second others)]
      rfl

/-- What stands between the quotes and the text: nothing or a line feed, in front and behind. -/
structure Framed (text before after : List Char) : Prop where
  front : before = [] ∨ before = ['\n']
  back : after = [] ∨ after = ['\n']
  closed : after = [] → ∀ c ∈ text.getLast?, c ≠ '"' ∧ c ≠ '\\'
  several : 1 < (splitLines (escapeQuotes text)).length → before = ['\n']
  single : (splitLines (escapeQuotes text)).length ≤ 1 → before = ['\n'] →
    ∀ c ∈ text.head?, isIndent c = false

theorem write_framed (text : List Char) : ∃ before after, Framed text before after ∧
    write text = '"' :: '"' :: '"' :: (before ++ escapeQuotes text ++ after ++ ['"', '"', '"']) := by
  unfold write
  extract_lets escaped lines singleLine laterLinesIndented endsInTripleQuotes needsBreakAtEnd
    onOwnLines keepsFirstLine before after
  refine ⟨before, after, ⟨?_, ?_, fun h c hc => ?_, fun h => ?_, fun h hbefore c hc => ?_⟩, ?_⟩
  · by_cases hb : ((onOwnLines && !keepsFirstLine) || laterLinesIndented) = true
    · exact .inr (if_pos hb)
    · exact .inl (if_neg hb)
  · by_cases ha : (onOwnLines || needsBreakAtEnd) = true
    · exact .inr (if_pos ha)
    · exact .inl (if_neg ha)
  -- a line feed stands behind every text that ends in a quote or a backslash
  · have ha : ¬(onOwnLines || needsBreakAtEnd) = true := fun ha => by
      rw [show after = ['\n'] from if_pos ha] at h
      cases h
    simp only [onOwnLines, needsBreakAtEnd, Option.mem_def.mp hc] at ha
    constructor
    · rintro rfl
      simp only [Bool.or_eq_true, not_or] at ha
      cases htriple : endsInTripleQuotes with
      | true => exact ha.1.2 htriple
      | false => exact ha.2.1 (by simp [htriple])
    · rintro rfl
      simp at ha
  · have hsingle : ¬singleLine := Nat.not_le.mpr h
    have hb : ((onOwnLines && !keepsFirstLine) || laterLinesIndented) = true := by
      simp [onOwnLines, keepsFirstLine, hsingle]
    exact if_pos hb
  -- a single line has a line of its own only if the indentation in front of it is not part of it
  · have hlater : laterLinesIndented = false := by
      simp [laterLinesIndented, lines, Nat.not_lt.mpr h, escaped]
    have hsingle : singleLine := h
    have hb : ((onOwnLines && !keepsFirstLine) || laterLinesIndented) = true :=
      Decidable.byContradiction fun hb => by
        rw [show before = [] from if_neg hb] at hbefore
        cases hbefore
    simp [hlater, keepsFirstLine, hsingle, Option.mem_def.mp hc] at hb
    exact hb.2
  · simp [before, after, escaped]

theorem indentOf_eq_zero (h : ∀ c ∈ line.head?, isIndent c = false) : indentOf line = 0 := by
  cases line with
  | nil => rfl
  | cons c line => simp [indentOf, h c rfl]

/-- The written form of a dedented text, indented, is read as the text. -/
theorem dedent_indentLines {text before after : List Char} (ht : IsDedented text)
    (hf : Framed text before after) (hne : text ≠ []) (depth : Nat) :
    dedent (indentLines depth (before ++ text ++ after)) = text := by
  obtain ⟨lines, hlines, rfl⟩ := ht
  match lines with
  | [] => exact absurd rfl hne
  | [line] =>
    have hblank : isBlank line = false := hlines.first line rfl
    have hline : IsLine line := hlines.isLine line List.mem_cons_self
    have hsingle : (splitLines (escapeQuotes line)).length ≤ 1 := by
      rw [splitLines_of_isLine (isLine_escapeQuotes hline), List.length_singleton]
    rw [joinLines_singleton] at hf ⊢
    rcases hf.front with rfl | rfl
    · exact dedent_indentLines_single hline hblank depth hf.back
    · -- on a line of its own it would lose an indentation, but has none
      have hindent : indentOf line = 0 := indentOf_eq_zero (hf.single hsingle rfl)
      have := dedent_indentLines_newline hlines depth hf.back (List.cons_ne_nil _ _)
        ⟨line, List.mem_cons_self, hblank, hindent⟩
      rwa [joinLines_singleton] at this
  | first :: second :: others =>
    have hseveral : 1 < (splitLines (escapeQuotes (joinLines (first :: second :: others)))).length := by
      rw [splitLines_escapeQuotes hlines.isLine (List.cons_ne_nil _ _), List.length_map]
      exact Nat.lt_of_sub_eq_succ rfl
    rw [hf.several hseveral]
    exact dedent_indentLines_newline hlines depth hf.back (List.cons_ne_nil _ _)
      (hlines.indent (Nat.le_add_left 2 _))

theorem getLast?_indentLines_newline (depth : Nat) (cs : List Char) :
    ∀ c ∈ (indentLines depth (cs ++ ['\n'])).getLast?, c ≠ '"' ∧ c ≠ '\\' := by
  intro c hc
  have hmem : c ∈ '\n' :: indentation depth := by
    rw [indentLines_append, List.getLast?_append] at hc
    have hlast : (indentLines depth ['\n']).getLast? ≠ none := by simp [indentLines]
    obtain ⟨d, hd⟩ := Option.ne_none_iff_exists'.mp hlast
    rw [hd] at hc
    cases hc
    have := List.mem_of_getLast? hd
    simpa [indentLines] using this
  rcases List.mem_cons.mp hmem with rfl | hmem
  · decide
  · rw [List.eq_of_mem_replicate hmem]
    decide

theorem getLast?_indentLines (depth : Nat) (cs : List Char)
    (h : ∀ c ∈ cs.getLast?, c ≠ '"' ∧ c ≠ '\\') :
    ∀ c ∈ (indentLines depth cs).getLast?, c ≠ '"' ∧ c ≠ '\\' := by
  rcases List.eq_nil_or_concat cs with rfl | ⟨front, d, rfl⟩
  · intro c hc
    cases hc
  · rw [List.concat_eq_append] at h ⊢
    by_cases hd : d = '\n'
    · subst hd
      exact getLast?_indentLines_newline depth front
    · intro c hc
      rw [indentLines_append, indentLines_cons depth hd, List.getLast?_append] at hc
      exact h c (by simpa [indentLines] using hc)

/-- **Block strings are read as they are written**: the written form of a dedented text, at any depth, is read
as the text, whatever follows it. -/
theorem readBlock_write {text : List Char} (ht : IsDedented text) (depth : Nat) (rest : List Char) :
    ∃ written, indentLines depth (write text) ++ rest = '"' :: '"' :: '"' :: written ∧
      (Lexer.readBlock written).map (fun inner => String.ofList (dedent inner))
        = .done (String.ofList text) rest := by
  by_cases hne : text = []
  · -- nothing stands between the quotes, not even a line feed
    subst hne
    exact ⟨'"' :: '"' :: '"' :: rest, by rfl, by rfl⟩
  · obtain ⟨before, after, hf, hwrite⟩ := write_framed text
    have hnewline : ∀ cs, cs = [] ∨ cs = ['\n'] → '"' ∉ cs := by
      rintro cs (rfl | rfl) <;> decide
    -- what is written is the escaped form of a text that is read as `text`
    have hescaped : before ++ escapeQuotes text ++ after
        = escapeQuotes (before ++ text ++ after) := by
      rw [List.append_assoc, List.append_assoc,
        escapeQuotes_of_not_mem (hnewline before hf.front)]
      congr 1
      rcases hf.back with rfl | rfl
      · rw [List.append_nil, List.append_nil]
      · exact (escapeQuotes_append_newline text []).symm
    have hlast : ∀ c ∈ (before ++ text ++ after).getLast?, after = [] →
        c ≠ '"' ∧ c ≠ '\\' := by
      rintro c hc rfl
      rw [List.append_nil, List.getLast?_append, List.getLast?_eq_some_getLast hne,
        Option.some_or] at hc
      exact hf.closed rfl c (by rwa [List.getLast?_eq_some_getLast hne])
    have hquotes : IsLine ['"', '"', '"'] := by simp [IsLine, isLineEnd]
    refine ⟨escapeQuotes (indentLines depth (before ++ text ++ after))
      ++ '"' :: '"' :: '"' :: rest, ?_, ?_⟩
    · rw [hwrite, hescaped, indentLines_cons _ (by decide), indentLines_cons _ (by decide),
        indentLines_cons _ (by decide), indentLines_append, indentLines_escapeQuotes,
        indentLines_of_isLine depth hquotes]
      simp
    · rw [readBlock_escapeQuotes]
      · show Lexer.Reading.done (String.ofList (dedent _)) _ = _
        rw [dedent_indentLines ht hf hne]
      · rcases hf.back with rfl | rfl
        · exact getLast?_indentLines depth _ fun c hc => hlast c hc rfl
        · exact getLast?_indentLines_newline depth _

end ResolverWiring.Graphql.BlockString
