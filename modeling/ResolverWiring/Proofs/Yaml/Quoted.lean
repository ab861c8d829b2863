import Mathlib.Data.List.TakeWhile
import ResolverWiring.Proofs.Yaml.Written
import ResolverWiring.Yaml.Token.Quoted

/-!
# `Proofs.Yaml.Quoted` — quoted scalars are read as they were written

A quoted scalar is read piece by piece up to its closing quote; `Reads` says which text that gives, with one
lemma for each way to write a piece: a character, a space, a line end that is folded, an escape, and a joined
line. The writers are followed along the text (`reads_writeSingle`, `reads_writeDouble`).

In double quotes a line is folded behind an escape, and once more at a space behind it if the next line starts
beyond the line width. The two backslashes then stand next to each other and are read as one, so the text must
have no such space where lines are indented that far (`hasSpaceBehindEscape`).
-/

namespace ResolverWiring.Yaml

open Text

variable {style : QuoteStyle} {c : Char} {before? : Option Char} {cs cs' text piece rest : List Char} {layout : Layout}

/-! ## Blanks -/

/-- Behind the blanks in front there is no line end. -/
def BlanksInside (cs : List Char) : Prop := takeBreak? (cs.dropWhile isBlank) = none

/-- Neither a blank nor a line end is in front. -/
def StartsInk (cs : List Char) : Prop := ∀ c ∈ cs.head?, isBlank c = false ∧ isBreak c = false

theorem startsInk_cons : StartsInk (c :: cs) ↔ isBlank c = false ∧ isBreak c = false := by
  simp [StartsInk]

theorem StartsInk.dropWhile (h : StartsInk cs) : cs.dropWhile isBlank = cs := by
  cases cs with
  | nil => rfl
  | cons c cs => exact List.dropWhile_cons_of_neg (Bool.eq_false_iff.mp (startsInk_cons.mp h).1)

theorem StartsInk.takeBreak? (h : StartsInk cs) : takeBreak? cs = none := by
  cases cs with
  | nil => rfl
  | cons c cs =>
    have hbreak := (startsInk_cons.mp h).2
    unfold Yaml.takeBreak?
    split
    · rename_i heq
      cases heq
      cases hbreak
    · rename_i heq
      cases heq
      rw [hbreak, if_neg Bool.false_ne_true]
    · rfl

theorem StartsInk.blanksInside (h : StartsInk cs) : BlanksInside cs := by
  rw [BlanksInside, h.dropWhile, h.takeBreak?]

theorem blanksInside_space (h : BlanksInside cs) : BlanksInside (' ' :: cs) := h

theorem dropWhile_spaces (count : Nat) (cs : List Char) :
    (List.replicate count ' ' ++ cs).dropWhile isBlank = cs.dropWhile isBlank := by
  induction count with
  | zero => rfl
  | succ count ih => exact ih

/-- An indented line is no document marker. -/
theorem atDocumentMarker_indented {count : Nat} (h : 0 < count) (cs : List Char) :
    atDocumentMarker (List.replicate count ' ' ++ cs) = false := by
  obtain ⟨count, rfl⟩ := Nat.exists_eq_succ_of_ne_zero (Nat.ne_of_gt h)
  rfl

/-- Empty lines and the indentation behind them are blank. -/
theorem takeBlankLines_feeds {indent : Nat} (feeds : Nat) (hindent : 0 < indent) (h : StartsInk cs) :
    takeBlankLines (List.replicate feeds '\n' ++ (List.replicate indent ' ' ++ cs))
      = .ok (List.replicate feeds '\n', cs) := by
  induction feeds with
  | zero =>
    rw [List.replicate_zero, List.nil_append, takeBlankLines, atDocumentMarker_indented hindent,
      if_neg Bool.false_ne_true]
    split
    · rw [dropWhile_spaces, h.dropWhile]
    · rename_i heq
      rw [dropWhile_spaces, h.blanksInside] at heq
      cases heq
  | succ feeds ih =>
    rw [List.replicate_succ, List.cons_append, takeBlankLines, if_neg (by simp [atDocumentMarker])]
    split
    · rename_i heq
      cases heq
    · rename_i heq
      cases heq
      rw [ih]
      rfl

/-! ## Reading piece by piece -/

/-- What is read up to the closing quote, and what is behind it. -/
inductive Reads (style : QuoteStyle) : List Char → List Char → List Char → Prop
  | close {cs : List Char} : takePiece style cs = .ok none → Reads style cs [] cs.tail
  | piece {cs piece cs' text rest : List Char} : takePiece style cs = .ok (some (piece, cs')) →
      cs'.length < cs.length → Reads style cs' text rest → Reads style cs (piece ++ text) rest

theorem Reads.takeQuoted (h : Reads style cs text rest) : takeQuoted style cs = .ok (text, rest) := by
  have hbound : ∀ bound, cs.length < bound → takeQuotedFrom style bound cs = .ok (text, rest) := by
    induction h with
    | close hpiece =>
      intro bound hbound
      obtain ⟨bound, rfl⟩ := Nat.exists_eq_succ_of_ne_zero (Nat.ne_zero_of_lt hbound)
      rw [takeQuotedFrom, hpiece]
      rfl
    | piece hpiece hlength _ ih =>
      intro bound hbound
      obtain ⟨bound, rfl⟩ := Nat.exists_eq_succ_of_ne_zero (Nat.ne_zero_of_lt hbound)
      rw [takeQuotedFrom, hpiece]
      show (takeQuotedFrom style bound _ >>= _) = _
      rw [ih bound (by omega)]
      rfl
  exact hbound _ (Nat.lt_succ_self _)

theorem takePiece_gap (hblank : isBlank c = true ∨ isBreak c = true) (cs : List Char) :
    takePiece style (c :: cs) = (takeQuotedGap (c :: cs)).map some := by
  have hne : ∀ {d : Char}, isBlank d = false → isBreak d = false → c ≠ d := by
    rintro d hd hd' rfl
    rw [hd, hd'] at hblank
    rcases hblank with h | h <;> cases h
  have hquote : c ≠ style.quote := by cases style <;> exact hne (by decide) (by decide)
  rw [takePiece, if_neg, if_neg (by simpa using hquote), if_pos (by simpa using hblank)]
  have hsingle : c ≠ '\'' := hne (by decide) (by decide)
  simp [hsingle]

theorem takeQuotedGap_inside (h : BlanksInside cs) :
    takeQuotedGap cs = .ok (cs.takeWhile isBlank, cs.dropWhile isBlank) := by
  rw [takeQuotedGap, h]

theorem takeQuotedGap_newline (cs : List Char) : takeQuotedGap ('\n' :: cs)
    = (takeBlankLines cs).map fun (others, rest) => (if others.isEmpty then [' '] else others, rest) := rfl

namespace Reads

/-- A character that stands for itself. -/
theorem ink (hquote : c ≠ style.quote) (hslash : style = .double → c ≠ '\\')
    (hink : isBlank c = false ∧ isBreak c = false) (h : Reads style cs text rest) :
    Reads style (c :: cs) (c :: text) rest := by
  have hpiece : takePiece style (c :: cs) = .ok (some ([c], cs)) := by
    cases style with
    | single =>
      have hquote : c ≠ '\'' := hquote
      simp [takePiece, hquote, hink, QuoteStyle.quote]
    | double =>
      have hquote : c ≠ '"' := hquote
      simp [takePiece, hquote, hslash rfl, hink, QuoteStyle.quote]
  exact .piece hpiece (Nat.lt_succ_self _) h

/-- A space within a line. -/
theorem space (hinside : BlanksInside cs) (h : Reads style cs text rest) :
    Reads style (' ' :: cs) (' ' :: text) rest := by
  have hpiece : takePiece style (' ' :: cs) = .ok (some (' ' :: cs.takeWhile isBlank, cs.dropWhile isBlank)) := by
    rw [takePiece_gap (.inl rfl), takeQuotedGap_inside (blanksInside_space hinside)]
    rfl
  have hlength : (cs.dropWhile isBlank).length < (' ' :: cs).length :=
    Nat.lt_succ_of_le (List.dropWhile_sublist isBlank).length_le
  by_cases hblank : ∃ d ds, cs = d :: ds ∧ isBlank d = true
  · -- the spaces behind are read along with this one
    obtain ⟨d, ds, rfl, hd⟩ := hblank
    have hbehind : takePiece style (d :: ds)
        = .ok (some ((d :: ds).takeWhile isBlank, (d :: ds).dropWhile isBlank)) := by
      rw [takePiece_gap (.inl hd), takeQuotedGap_inside hinside]
      rfl
    cases h with
    | close hclose =>
      rw [hbehind] at hclose
      cases hclose
    | piece hsome _ hrest =>
      rw [hbehind] at hsome
      cases hsome
      exact .piece hpiece hlength hrest
  · have hink : cs.takeWhile isBlank = [] ∧ cs.dropWhile isBlank = cs := by
      cases cs with
      | nil => exact ⟨rfl, rfl⟩
      | cons d ds =>
        have hd : isBlank d = false := eq_false_of_ne_true fun hd => hblank ⟨d, ds, rfl, hd⟩
        exact ⟨List.takeWhile_cons_of_neg (Bool.eq_false_iff.mp hd),
          List.dropWhile_cons_of_neg (Bool.eq_false_iff.mp hd)⟩
    rw [hink.1, hink.2] at hpiece
    exact .piece hpiece (Nat.lt_succ_self _) h

/-- A line end that is folded to a space, or a run of them that is one longer than what it stands for. -/
theorem feeds {indent : Nat} (count : Nat) (hindent : 0 < indent) (hink : StartsInk cs) (h : Reads style cs text rest) :
    Reads style ('\n' :: (List.replicate count '\n' ++ (List.replicate indent ' ' ++ cs)))
      ((if count = 0 then [' '] else List.replicate count '\n') ++ text) rest := by
  refine .piece ?_ ?_ h
  · rw [takePiece_gap (.inr rfl), takeQuotedGap_newline, takeBlankLines_feeds count hindent hink]
    cases count <;> rfl
  · simp only [List.length_cons, List.length_append]
    omega

/-- The closing quote. -/
theorem closing (h : rest.head? ≠ some '\'') : Reads style (style.quote :: rest) [] rest := by
  have hclose : takePiece style (style.quote :: rest) = .ok none := by
    cases style <;> simp [takePiece, QuoteStyle.quote, h]
  exact .close hclose

/-- A quote in single quotes is written twice. -/
theorem quotePair (h : Reads .single cs text rest) : Reads .single ('\'' :: '\'' :: cs) ('\'' :: text) rest := by
  have hpiece : takePiece .single ('\'' :: '\'' :: cs) = .ok (some (['\''], cs)) := rfl
  exact .piece hpiece (Nat.lt_succ_of_lt (Nat.lt_succ_self _)) h

theorem escape (hescape : takeEscape cs' = .ok (piece, cs)) (hlength : cs.length ≤ cs'.length)
    (h : Reads .double cs text rest) : Reads .double ('\\' :: cs') (piece ++ text) rest := by
  have hpiece : takePiece .double ('\\' :: cs') = (takeEscape cs').map some := rfl
  exact .piece (hpiece.trans (by rw [hescape]; rfl)) (Nat.lt_succ_of_le hlength) h

/-- A backslash at the end of a line joins it with the next one. -/
theorem joined {indent : Nat} (hindent : 0 < indent) (hink : StartsInk cs) (h : Reads .double cs text rest) :
    Reads .double ('\\' :: (newLine indent ++ cs)) text rest := by
  have hlines := takeBlankLines_feeds 0 hindent hink
  have hescape : takeEscape (newLine indent ++ cs) = .ok ([], cs) := hlines
  exact escape hescape (by simp only [newLine, List.length_append, List.length_cons]; omega) h

/-- A space that is escaped. -/
theorem escapedSpace (h : Reads .double cs text rest) : Reads .double ('\\' :: ' ' :: cs) (' ' :: text) rest := by
  have hescape : takeEscape (' ' :: cs) = .ok ([' '], cs) := rfl
  exact escape hescape (Nat.le_succ _) h

end Reads

/-! ## Escapes -/

theorem shortEscape?_escapeLetter? {letter : Char} (h : escapeLetter? c = some letter) :
    shortEscape? letter = some c := by
  unfold escapeLetter? at h
  split at h <;> first | (cases h; rfl) | cases h

theorem takeCode_upperHex {width : Nat} (hwidth : 0 < width) (hc : c.toNat < 16 ^ width) (cs : List Char) :
    takeCode width (upperHex width c.toNat ++ cs) = .ok (c, cs) := by
  have hlength := length_upperHex hwidth hc
  have htake : (upperHex width c.toNat ++ cs).take width = upperHex width c.toNat := List.take_left' hlength
  have hdigits : (upperHex width c.toNat).all (fun d => (hexDigit? d).isSome) = true :=
    List.all_eq_true.mpr fun d hd => (upperHex_mem hd).1
  have hscalar : isScalar c.toNat = true := by
    simp only [isScalar, Bool.or_eq_true, Bool.and_eq_true, decide_eq_true_eq]
    exact toNat_valid c
  have hcode : charOfCode c.toNat = .ok c := by
    rw [charOfCode, hscalar, if_pos rfl, Char.ofNat_toNat]
  rw [takeCode]
  dsimp only
  rw [htake, hlength, hdigits, hexValue?_upperHex]
  simp only [decide_true, Bool.and_self, if_true, Option.getD_some, hcode]
  rw [List.drop_left' hlength]

/-- An escape is read as the character for which it stands. -/
theorem takeEscape_escapeOf (c : Char) :
    ∃ body, escapeOf c = '\\' :: body ∧ ∀ cs, takeEscape (body ++ cs) = .ok ([c], cs) := by
  unfold escapeOf
  split
  · rename_i letter hletter
    refine ⟨[letter], rfl, fun cs => ?_⟩
    show takeEscape (letter :: cs) = _
    rw [takeEscape, shortEscape?_escapeLetter? hletter]
  · have hcode : ∀ {letter : Char} {width : Nat}, shortEscape? letter = none → escapeWidth? letter = some width →
        0 < width → c.toNat < 16 ^ width → ∀ cs,
          takeEscape (letter :: (upperHex width c.toNat ++ cs)) = .ok ([c], cs) := by
      intro letter width hshort hwide hwidth hc cs
      rw [takeEscape, hshort, hwide]
      show (takeCode width _).map _ = _
      rw [takeCode_upperHex hwidth hc]
      rfl
    split
    · rename_i hsize
      exact ⟨'x' :: upperHex 2 c.toNat, rfl, hcode rfl rfl (by decide) (Nat.lt_succ_of_le hsize)⟩
    · split
      · rename_i hsize
        exact ⟨'u' :: upperHex 4 c.toNat, rfl, hcode rfl rfl (by decide) (Nat.lt_succ_of_le hsize)⟩
      · refine ⟨'U' :: upperHex 8 c.toNat, rfl, hcode rfl rfl (by decide) ?_⟩
        have hvalid := toNat_valid c
        omega

/-! ## Single quotes -/

theorem hasSpaceAtBreak_cons {a b : Char} (h : hasSpaceAtBreak (a :: b :: cs) = false) :
    ¬ (a = ' ' ∧ b = '\n') ∧ ¬ (a = '\n' ∧ b = ' ') ∧ hasSpaceAtBreak (b :: cs) = false := by
  rw [hasSpaceAtBreak] at h
  simpa [and_assoc] using h

theorem hasSpaceAtBreak_head (h : hasSpaceAtBreak (c :: cs) = false) :
    (c = ' ' → cs.head? ≠ some '\n') ∧ (c = '\n' → cs.head? ≠ some ' ') := by
  cases cs with
  | nil => exact ⟨nofun, nofun⟩
  | cons d ds =>
    obtain ⟨hfeed, hspace, -⟩ := hasSpaceAtBreak_cons h
    exact ⟨fun hc hd => hfeed ⟨hc, by simpa using hd⟩, fun hc hd => hspace ⟨hc, by simpa using hd⟩⟩

theorem hasSpaceAtBreak_feeds {count : Nat}
    (h : hasSpaceAtBreak ('\n' :: (List.replicate count '\n' ++ cs)) = false) :
    hasSpaceAtBreak ('\n' :: cs) = false := by
  induction count with
  | zero => exact h
  | succ count ih => exact ih (hasSpaceAtBreak_cons h).2.2

theorem exists_feeds (text : List Char) :
    ∃ count others, text = List.replicate count '\n' ++ others ∧ others.head? ≠ some '\n' := by
  induction text with
  | nil => exact ⟨0, [], rfl, nofun⟩
  | cons c text ih =>
    by_cases hc : c = '\n'
    · obtain ⟨count, others, rfl, hothers⟩ := ih
      exact ⟨count + 1, others, by rw [hc]; rfl, hothers⟩
    · exact ⟨0, c :: text, rfl, by simpa using hc⟩

/-- A run of line feeds is written with one line end more, and the indentation of the line behind it. -/
theorem writeSingle_feeds (layout : Layout) (column : Nat) (before? : Option Char) (count : Nat)
    (hothers : text.head? ≠ some '\n') :
    writeSingle layout column before? ('\n' :: (List.replicate count '\n' ++ text))
      = (if before? = some '\n' then [] else ['\n']) ++ (List.replicate (count + 1) '\n'
          ++ (List.replicate layout.indent ' ' ++ writeSingle layout layout.indent (some '\n') text)) := by
  induction count generalizing column before? with
  | zero =>
    have hhead : (text.head? == some '\n') = false := by simpa using hothers
    rw [List.replicate_zero, List.nil_append, writeSingle]
    simp only [beq_self_eq_true, if_true, hhead]
    by_cases hbefore : before? = some '\n' <;> simp [hbefore]
  | succ count ih =>
    have hhead : ((List.replicate (count + 1) '\n' ++ text).head? == some '\n') = true := rfl
    rw [writeSingle]
    simp only [beq_self_eq_true, if_true, hhead]
    rw [List.replicate_succ, List.cons_append, ih 0 (some '\n')]
    by_cases hbefore : before? = some '\n' <;> simp [hbefore, List.replicate_succ]

/-- What is written of a text that starts with ink starts so as well. -/
theorem startsInk_writeSingle (layout : Layout) (column : Nat) (before? : Option Char) (rest : List Char)
    (hwritten : Written text)
    (hspace : text.head? ≠ some ' ') (hfeed : text.head? ≠ some '\n') :
    StartsInk (writeSingle layout column before? text ++ '\'' :: rest) := by
  cases text with
  | nil => exact startsInk_cons.mpr (by decide)
  | cons c cs =>
    have hspace : c ≠ ' ' := by simpa using hspace
    have hfeed : c ≠ '\n' := by simpa using hfeed
    have hvisible : isVisible c = true := by
      have hc := hwritten c List.mem_cons_self
      simpa [isWritten, hfeed] using hc
    rw [writeSingle]
    simp only [beq_iff_eq, hfeed, if_false, isLoneSpace, beq_eq_false_iff_ne.mpr hspace, Bool.false_and,
      Bool.false_eq_true]
    split
    · exact startsInk_cons.mpr (by decide)
    · exact startsInk_cons.mpr (isVisible_ink hvisible hspace)

/-- Behind a space no line is folded before something else than a space is written. -/
theorem blanksInside_writeSingle {column : Nat} (hwritten : Written text)
    (hbreak : hasSpaceAtBreak (' ' :: text) = false) :
    BlanksInside (writeSingle layout column (some ' ') text ++ '\'' :: rest) := by
  induction text generalizing column with
  | nil => exact (startsInk_cons.mpr (by decide)).blanksInside
  | cons c cs ih =>
    have hcs : Written cs := fun d hd => hwritten d (List.mem_cons_of_mem c hd)
    obtain ⟨hfeed, -, hothers⟩ := hasSpaceAtBreak_cons hbreak
    by_cases hspace : c = ' '
    · subst hspace
      have hnext : writeSingle layout column (some ' ') (' ' :: cs)
          = ' ' :: writeSingle layout (column + 1) (some ' ') cs := by
        rw [writeSingle]
        simp [isLoneSpace]
      rw [hnext]
      exact blanksInside_space (ih hcs hothers)
    · have hfeed : c ≠ '\n' := fun h => hfeed ⟨rfl, h⟩
      exact (startsInk_writeSingle _ _ _ _ hwritten (by simpa using hspace) (by simpa using hfeed)).blanksInside

/-- A run of line feeds is read back with what follows it. -/
theorem reads_writeSingle_feeds (hindent : 0 < layout.indent) (column : Nat) (hbefore : before? ≠ some '\n')
    (count : Nat) (hwritten : Written text) (hspace : text.head? ≠ some ' ') (hfeed : text.head? ≠ some '\n')
    (hread : Reads .single (writeSingle layout layout.indent (some '\n') text ++ '\'' :: rest) text rest) :
    Reads .single (writeSingle layout column before? ('\n' :: (List.replicate count '\n' ++ text)) ++ '\'' :: rest)
      ('\n' :: (List.replicate count '\n' ++ text)) rest := by
  have hink := startsInk_writeSingle layout layout.indent (some '\n') rest hwritten hspace hfeed
  have hfeeds := Reads.feeds (count + 1) hindent hink hread
  rw [if_neg (Nat.succ_ne_zero count), List.replicate_succ] at hfeeds
  rw [writeSingle_feeds layout column before? count hfeed, if_neg hbefore]
  simpa [List.replicate_succ] using hfeeds

/-- Any other character is read back with what follows it. -/
theorem reads_writeSingle_char (hindent : 0 < layout.indent) (column : Nat) (before? : Option Char) (hfeed : c ≠ '\n')
    (hwritten : Written (c :: text)) (hbreak : hasSpaceAtBreak (c :: text) = false)
    (hread : ∀ column, Reads .single (writeSingle layout column (some c) text ++ '\'' :: rest) text rest) :
    Reads .single (writeSingle layout column before? (c :: text) ++ '\'' :: rest) (c :: text) rest := by
  obtain ⟨hc, htext⟩ := written_cons.mp hwritten
  rw [writeSingle, if_neg (by simpa using hfeed)]
  split
  · -- a space at which the line is folded
    rename_i hfold
    simp only [isLoneSpace, Bool.and_eq_true, beq_iff_eq, bne_iff_ne] at hfold
    have hspace : c = ' ' := hfold.1.1.1.1.1
    have hnext : text.head? ≠ some ' ' := hfold.1.1.1.2
    have hink := startsInk_writeSingle layout layout.indent (some c) rest htext hnext
      ((hasSpaceAtBreak_head hbreak).1 hspace)
    have hfold := Reads.feeds 0 hindent hink (hread layout.indent)
    rw [hspace] at hfold ⊢
    simpa [newLine] using hfold
  · split
    · rename_i hquote
      rw [beq_iff_eq.mp hquote] at hread ⊢
      exact Reads.quotePair (hread _)
    · rename_i hquote
      by_cases hspace : c = ' '
      · subst hspace
        exact Reads.space (blanksInside_writeSingle htext hbreak) (hread _)
      · have hvisible : isVisible c = true := by simpa [isWritten, hfeed] using hc
        exact Reads.ink (by simpa [QuoteStyle.quote] using hquote) (by simp) (isVisible_ink hvisible hspace) (hread _)

/-- A text in single quotes is read as it is. -/
theorem reads_writeSingle (hindent : 0 < layout.indent) (hrest : rest.head? ≠ some '\'') (column : Nat)
    (before? : Option Char) (hwritten : Written text)
    (hbreak : hasSpaceAtBreak (before?.toList ++ text) = false)
    (hrun : before? = some '\n' → text.head? ≠ some '\n') :
    Reads .single (writeSingle layout column before? text ++ '\'' :: rest) text rest := by
  -- a run of line feeds is read in one piece, so the induction is on the length
  induction hlength : text.length using Nat.strong_induction_on generalizing text column before? with
  | _ length ih =>
    subst hlength
    cases text with
    | nil => exact Reads.closing hrest
    | cons c cs =>
      have hbehind : hasSpaceAtBreak (c :: cs) = false := by
        cases before? with
        | none => exact hbreak
        | some b => exact (hasSpaceAtBreak_cons hbreak).2.2
      by_cases hfeed : c = '\n'
      · subst hfeed
        obtain ⟨count, others, rfl, hhead⟩ := exists_feeds cs
        have hothers := hasSpaceAtBreak_feeds hbehind
        have hwritten := (written_append.mp (written_cons.mp hwritten).2).2
        have hshorter : others.length < ('\n' :: (List.replicate count '\n' ++ others)).length := by
          simp only [List.length_cons, List.length_append]
          omega
        have hread := ih _ hshorter layout.indent (some '\n') hwritten hothers (fun _ => hhead) rfl
        exact reads_writeSingle_feeds hindent column (fun h => hrun h rfl) count hwritten
          ((hasSpaceAtBreak_head hothers).2 rfl) hhead hread
      · exact reads_writeSingle_char hindent column before? hfeed hwritten hbehind fun column =>
          ih cs.length (Nat.lt_succ_self _) column (some c) (written_cons.mp hwritten).2 hbehind
            (fun h => absurd (Option.some.inj h) hfeed) rfl

/-! ## Double quotes -/

/-- Whether an escaped character is followed by a space, and this by something else. -/
def hasSpaceBehindEscape : List Char → Bool
  | c :: d :: cs => (needsEscape c && d == ' ' && !cs.isEmpty) || hasSpaceBehindEscape (d :: cs)
  | _ => false

/-- Whether a layout keeps a text in double quotes as it is. Behind the first character no escape may be
followed by a space inside the text if further lines start beyond the line width. -/
def Layout.Keeps (layout : Layout) (text : List Char) : Prop :=
  layout.folds = true → lineWidth ≤ layout.indent → hasSpaceBehindEscape text.tail = false

theorem hasSpaceBehindEscape_cons (h : hasSpaceBehindEscape (c :: cs) = false) :
    hasSpaceBehindEscape cs = false := by
  cases cs with
  | nil => rfl
  | cons d cs =>
    rw [hasSpaceBehindEscape, Bool.or_eq_false_iff] at h
    exact h.2

theorem needsEscape_eq_false (h : needsEscape c = false) :
    c ≠ '"' ∧ c ≠ '\\' ∧ (c ≠ ' ' → isBlank c = false ∧ isBreak c = false) := by
  simp only [needsEscape, Bool.or_eq_false_iff, beq_eq_false_iff_ne, Bool.not_eq_false'] at h
  exact ⟨h.1.1, h.1.2, isVisible_ink h.2⟩

theorem startsInk_writeDouble (layout : Layout) (column : Nat) (first escaped : Bool) (rest : List Char)
    (hspace : text.head? ≠ some ' ') : StartsInk (writeDouble layout column first escaped text ++ '"' :: rest) := by
  cases text with
  | nil => exact startsInk_cons.mpr (by decide)
  | cons c cs =>
    have hspace : c ≠ ' ' := by simpa using hspace
    obtain ⟨body, hbody, -⟩ := takeEscape_escapeOf c
    rw [writeDouble]
    split
    · dsimp only
      rw [hbody]
      split <;> exact startsInk_cons.mpr (by decide)
    · rename_i hescape
      obtain ⟨-, -, hink⟩ := needsEscape_eq_false (eq_false_of_ne_true hescape)
      split
      · exact startsInk_cons.mpr (by decide)
      · exact startsInk_cons.mpr (hink hspace)

/-- In double quotes all line ends stand behind backslashes. -/
theorem blanksInside_writeDouble (layout : Layout) (column : Nat) (first escaped : Bool) (text rest : List Char) :
    BlanksInside (writeDouble layout column first escaped text ++ '"' :: rest) := by
  induction text generalizing column first escaped with
  | nil => exact (startsInk_cons.mpr (by decide)).blanksInside
  | cons c cs ih =>
    by_cases hspace : c = ' '
    · subst hspace
      rw [writeDouble, if_neg (by decide)]
      split
      · exact (startsInk_cons.mpr (by decide)).blanksInside
      · exact blanksInside_space (ih _ _ _)
    · exact (startsInk_writeDouble layout column first escaped rest (by simpa using hspace)).blanksInside

theorem foldBefore_space (indent : Nat) (cs : List Char) :
    foldBefore indent (' ' :: cs) = '\\' :: (newLine indent ++ ['\\']) := rfl

theorem foldBefore_ink {indent : Nat} (h : cs.head? ≠ some ' ') :
    foldBefore indent cs = '\\' :: newLine indent := by
  have hhead : (cs.head? == some ' ') = false := by simpa using h
  rw [foldBefore, hhead, if_neg Bool.false_ne_true, List.append_nil]

/-! ### Pieces of the written text -/

namespace Reads

theorem escapeOf (c : Char) (h : Reads .double cs text rest) : Reads .double (escapeOf c ++ cs) (c :: text) rest := by
  obtain ⟨body, hbody, htake⟩ := takeEscape_escapeOf c
  rw [hbody]
  exact escape (htake cs) (by simp) h

/-- A fold in front of a space, which the next line starts with as an escape. -/
theorem foldedSpace {indent : Nat} (hindent : 0 < indent) (cs' : List Char) (h : Reads .double cs text rest) :
    Reads .double (foldBefore indent (' ' :: cs') ++ ' ' :: cs) (' ' :: text) rest := by
  have hjoined := joined hindent (startsInk_cons.mpr (by decide)) (escapedSpace h)
  simpa [foldBefore_space] using hjoined

/-- A fold in front of anything else. -/
theorem foldedInk {indent : Nat} (hindent : 0 < indent) (hspace : cs'.head? ≠ some ' ') (hink : StartsInk cs)
    (h : Reads .double cs text rest) : Reads .double (foldBefore indent cs' ++ cs) text rest := by
  rw [foldBefore_ink hspace]
  exact joined hindent hink h

end Reads

theorem hasSpaceBehindEscape_space (h : hasSpaceBehindEscape (c :: ' ' :: cs) = false)
    (hescape : needsEscape c = true) : cs = [] := by
  rw [hasSpaceBehindEscape, hescape] at h
  simpa using (Bool.or_eq_false_iff.mp h).1

/-- A fold in front of a space is the last one before what follows the space: the line behind it is not yet full, or
the text ends with that space. -/
theorem writeDouble_behindFold (hlast : layout.folds = true → lineWidth ≤ layout.indent → cs = []) :
    writeDouble layout (foldColumn layout.indent (' ' :: cs)) false true (' ' :: cs)
      = ' ' :: writeDouble layout (foldColumn layout.indent (' ' :: cs) + 1) false false cs := by
  have hnone : (!false && !cs.isEmpty && (' ' == ' ' || true)
      && layout.foldsAt (foldColumn layout.indent (' ' :: cs))) = false := by
    refine eq_false_of_ne_true fun hagain => ?_
    simp only [Layout.foldsAt, foldColumn, Bool.and_eq_true] at hagain
    have hfar : lineWidth ≤ layout.indent := Nat.le_of_lt_succ (of_decide_eq_true hagain.2.2)
    rw [hlast hagain.2.1 hfar] at hagain
    cases hagain.1.1.2
  rw [writeDouble, if_neg (by decide), hnone, if_neg Bool.false_ne_true]

/-- A text in double quotes is read as it is. -/
theorem reads_writeDouble (hindent : 0 < layout.indent) (hrest : rest.head? ≠ some '\'') (column : Nat)
    (first escaped : Bool) (hkeeps : layout.folds = true → lineWidth ≤ layout.indent →
      hasSpaceBehindEscape (if first then text.tail else text) = false) :
    Reads .double (writeDouble layout column first escaped text ++ '"' :: rest) text rest := by
  -- behind a folded space the writer goes on two characters further, so the induction is on the length
  induction hlength : text.length using Nat.strong_induction_on generalizing text column first escaped with
  | _ length ih =>
    subst hlength
    cases text with
    | nil => exact Reads.closing hrest
    | cons c cs =>
      have hbehind : layout.folds = true → lineWidth ≤ layout.indent → hasSpaceBehindEscape cs = false := by
        intro hfolds hfar
        have h := hkeeps hfolds hfar
        cases first with
        | true => exact h
        | false => exact hasSpaceBehindEscape_cons h
      have hread := fun column escaped => ih cs.length (Nat.lt_succ_self _) column false escaped hbehind rfl
      rw [writeDouble]
      split
      · -- an escape
        rename_i hescape
        dsimp only
        split
        · rename_i hfold
          rw [List.append_assoc, List.append_assoc]
          refine Reads.escapeOf c ?_
          by_cases hspace : cs.head? = some ' '
          · obtain ⟨ds, rfl⟩ : ∃ ds, cs = ' ' :: ds := List.head?_eq_some_iff.mp hspace
            have hlast : layout.folds = true → lineWidth ≤ layout.indent → ds = [] := by
              intro hfolds hfar
              have hfirst : first = false := by
                simp only [Bool.and_eq_true] at hfold
                simpa using hfold.1.1
              have hkept := hkeeps hfolds hfar
              rw [hfirst] at hkept
              exact hasSpaceBehindEscape_space hkept hescape
            have hshorter : ds.length < (c :: ' ' :: ds).length := Nat.lt_succ_of_lt (Nat.lt_succ_self _)
            rw [writeDouble_behindFold hlast]
            exact Reads.foldedSpace hindent ds (ih ds.length hshorter _ false false
              (fun hfolds hfar => hasSpaceBehindEscape_cons (hbehind hfolds hfar)) rfl)
          · exact Reads.foldedInk hindent hspace (startsInk_writeDouble _ _ _ _ _ hspace) (hread _ _)
        · rw [List.append_assoc]
          exact Reads.escapeOf c (hread _ _)
      · -- a character that stands for itself
        rename_i hescape
        obtain ⟨hquote, hslash, hink⟩ := needsEscape_eq_false (eq_false_of_ne_true hescape)
        by_cases hspace : c = ' '
        · subst hspace
          split
          · rw [List.append_assoc]
            exact Reads.foldedSpace hindent cs (hread _ _)
          · exact Reads.space (blanksInside_writeDouble _ _ _ _ _ _) (hread _ _)
        · have hchar : ∀ column,
              Reads .double (c :: (writeDouble layout column false false cs ++ '"' :: rest)) (c :: cs) rest :=
            fun column => Reads.ink hquote (fun _ => hslash) (hink hspace) (hread column false)
          split
          · rw [List.append_assoc]
            exact Reads.foldedInk hindent (by simpa using hspace) (startsInk_cons.mpr (hink hspace)) (hchar _)
          · exact hchar _

/-! ## Whole scalars -/

/-- A scalar in single quotes is read back. -/
theorem takeQuoted_single (hindent : 0 < layout.indent) (hrest : rest.head? ≠ some '\'') (column : Nat)
    (hallows : allowsSingle text = true) :
    takeQuoted .single (writeSingle layout column none text ++ '\'' :: rest) = .ok (text, rest) := by
  rw [allowsSingle, Bool.and_eq_true, Bool.not_eq_true'] at hallows
  have hwritten : Written text := List.all_eq_true.mp hallows.1
  exact (reads_writeSingle hindent hrest column none hwritten hallows.2 nofun).takeQuoted

/-- A scalar in double quotes is read back, if its layout keeps it. -/
theorem takeQuoted_double (hindent : 0 < layout.indent) (hrest : rest.head? ≠ some '\'') (column : Nat)
    (hkeeps : layout.Keeps text) :
    takeQuoted .double (writeDouble layout column true false text ++ '"' :: rest) = .ok (text, rest) :=
  (reads_writeDouble hindent hrest column true false hkeeps).takeQuoted

end ResolverWiring.Yaml
