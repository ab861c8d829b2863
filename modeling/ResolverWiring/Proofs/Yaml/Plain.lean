import ResolverWiring.Proofs.Yaml.Quoted
import ResolverWiring.Yaml.Token.Lexer

/-!
# `Proofs.Yaml.Plain` — plain scalars are read as they were written

A plain scalar is read character by character (`takePlain_ink`), over the spaces inside it (`takePlain_space`)
and over the line ends at which it was folded (`takePlain_fold`), up to a line that is not indented deeply enough
or to the colon behind a key. The writer is followed along the text (`takePlain_writePlain`).
-/

namespace ResolverWiring.Yaml

variable {indent : Nat} {c : Char} {cs text rest behind : List Char} {endsLine : Bool} {layout : Layout}

/-! ## One piece at a time -/

/-- One more character in front. -/
def Plain.cons (c : Char) (plain : Plain) : Plain := { plain with text := c :: plain.text }

/-- A character of a chunk. -/
theorem takePlain_ink (h : endsChunk false c cs = false) :
    takePlain false indent (c :: cs) = (takePlain false indent cs).cons c := by
  rw [takePlain, takeChunk, h, if_neg Bool.false_ne_true]
  rfl

theorem endsChunk_eq_false (h : endsChunk false c cs = false) : isBlank c = false ∧ isBreak c = false := by
  rw [endsChunk, Bool.or_eq_false_iff, Bool.or_eq_false_iff, Bool.or_eq_false_iff] at h
  exact h.1.1

/-- Behind a gap the scalar goes on with a chunk. -/
theorem takePlain_gap {gap : Gap} (hfront : ∀ d ∈ cs.head?, isBlank d = true ∨ isBreak d = true)
    (hgap : takeGap cs = gap) (hrest : gap.rest = c :: rest) (hinside : gap.isInside false indent = true)
    (hink : endsChunk false c rest = false) :
    takePlain false indent cs
      = { takePlain false indent (c :: rest) with text := gap.text ++ (takePlain false indent (c :: rest)).text } := by
  have hchunk : takeChunk false cs = ([], cs) := by
    cases cs with
    | nil => rfl
    | cons d ds =>
      have hend : endsChunk false d ds = true := by
        rcases hfront d rfl with h | h <;> simp [endsChunk, h]
      rw [takeChunk, hend, if_pos rfl]
  have hbehind : takeChunk false (c :: rest) = (c :: (takeChunk false rest).1, (takeChunk false rest).2) := by
    rw [takeChunk, hink, if_neg Bool.false_ne_true]
  rw [takePlain, hchunk]
  dsimp only
  rw [hgap, takePlainFrom, if_neg (by simp [hinside])]
  split
  · rename_i heq
    rw [hrest, hbehind] at heq
    cases heq
  · rename_i heq
    rw [hrest, hbehind] at heq
    cases heq
    rw [takePlain, hbehind]
    simp

/-- Whether a chunk comes first behind spaces, and no comment. -/
def GoesOn (cs : List Char) : Prop :=
  ∃ count c rest, cs = List.replicate count ' ' ++ c :: rest ∧ c ≠ '#' ∧ endsChunk false c rest = false

theorem takeGap_spaces (count : Nat) (hink : isBlank c = false ∧ isBreak c = false) :
    takeGap (List.replicate count ' ' ++ c :: rest) = ⟨List.replicate count ' ', none, c :: rest⟩ := by
  have hspace : (c == ' ') = false := by
    rw [beq_eq_false_iff_ne]
    rintro rfl
    cases hink.1
  have htake : (List.replicate count ' ' ++ c :: rest).takeWhile (· == ' ') = List.replicate count ' ' := by
    rw [List.takeWhile_append_of_pos (by simp), List.takeWhile_cons_of_neg (by simp [hspace]), List.append_nil]
  have hskip : skipSpaces (List.replicate count ' ' ++ c :: rest) = c :: rest := by
    rw [skipSpaces, List.dropWhile_append_of_pos (by simp), List.dropWhile_cons_of_neg (by simp [hspace])]
  have hbreak := (startsInk_cons.mpr hink : StartsInk (c :: rest)).takeBreak?
  rw [takeGap]
  dsimp only
  rw [htake, hskip, hbreak]

/-- A space inside the scalar. -/
theorem takePlain_space (h : GoesOn cs) :
    takePlain false indent (' ' :: cs) = (takePlain false indent cs).cons ' ' := by
  obtain ⟨count, c, rest, rfl, hcomment, hink⟩ := h
  have hgap : ∀ n, takePlain false indent (List.replicate (n + 1) ' ' ++ c :: rest)
      = { takePlain false indent (c :: rest) with
          text := List.replicate (n + 1) ' ' ++ (takePlain false indent (c :: rest)).text } := fun n =>
    takePlain_gap (fun d hd => .inl (by cases hd; rfl)) (takeGap_spaces (n + 1) (endsChunk_eq_false hink)) rfl
      (by simp [Gap.isInside, hcomment]) hink
  have hmore := hgap count
  rw [List.replicate_succ, List.cons_append, List.cons_append] at hmore
  rw [hmore]
  cases count with
  | zero => rfl
  | succ count =>
    rw [hgap count]
    rfl

theorem skipLines_spaces (count column : Nat) (cs : List Char) :
    skipLines column (List.replicate count ' ' ++ cs) = skipLines (column + count) cs := by
  induction count generalizing column with
  | zero => rfl
  | succ count ih =>
    rw [List.replicate_succ, List.cons_append, skipLines, ih]
    congr 1
    omega

theorem skipLines_ink (column : Nat) (h : StartsInk cs) : skipLines column cs = ⟨some [], column, cs⟩ := by
  cases cs with
  | nil => rfl
  | cons c cs =>
    obtain ⟨hblank, hbreak⟩ := startsInk_cons.mp h
    unfold skipLines
    split
    · rename_i heq
      cases heq
      cases hblank
    · rename_i heq
      cases heq
      cases hbreak
    · rename_i heq
      cases heq
      rw [hbreak, if_neg Bool.false_ne_true]
    · rename_i heq
      cases heq

/-- A gap that is a line end with the indentation behind it. -/
theorem takeGap_newLine {count : Nat} (hink : StartsInk cs)
    (hmarker : atDocumentMarker (List.replicate count ' ' ++ cs) = false) :
    takeGap (newLine count ++ cs) = ⟨[' '], some count, cs⟩ := by
  have hbreak : takeBreak? (newLine count ++ cs) = some ('\n', List.replicate count ' ' ++ cs) := rfl
  have hskip : skipSpaces (newLine count ++ cs) = newLine count ++ cs := rfl
  have hlines : skipLines 0 (List.replicate count ' ' ++ cs) = ⟨some [], count, cs⟩ := by
    rw [skipLines_spaces, Nat.zero_add, skipLines_ink count hink]
  rw [takeGap]
  dsimp only
  rw [hskip, hbreak]
  dsimp only
  rw [if_neg (by simp [hmarker]), hlines]
  rfl

/-- A line end at which the scalar was folded. -/
theorem takePlain_fold {count : Nat} (hcount : 0 < count) (hindent : indent ≤ count) (hcomment : c ≠ '#')
    (hink : endsChunk false c rest = false) :
    takePlain false indent (newLine count ++ c :: rest) = (takePlain false indent (c :: rest)).cons ' ' := by
  have hstart : StartsInk (c :: rest) := startsInk_cons.mpr (endsChunk_eq_false hink)
  exact takePlain_gap (fun d hd => .inr (by cases hd; rfl))
    (takeGap_newLine hstart (atDocumentMarker_indented hcount _)) rfl (by simp [Gap.isInside, hcomment, hindent]) hink

/-! ## The end of a scalar -/

theorem takePlain_gap_end {gap : Gap} (hchunk : takeChunk false cs = ([], cs)) (hgap : takeGap cs = gap)
    (hinside : gap.isInside false indent = false) :
    takePlain false indent cs = ⟨[], gap.column?.isSome, gap.rest⟩ := by
  rw [takePlain, hchunk]
  dsimp only
  rw [hgap, takePlainFrom, if_pos (by simp [hinside])]
  rfl

/-- The scalar ends in front of a line that is not indented deeply enough. -/
theorem takePlain_newLine {count : Nat} (hindent : count < indent) (hink : StartsInk cs)
    (hmarker : atDocumentMarker (List.replicate count ' ' ++ cs) = false) :
    takePlain false indent (newLine count ++ cs) = ⟨[], true, cs⟩ :=
  takePlain_gap_end rfl (takeGap_newLine hink hmarker) (by simp [Gap.isInside, hindent])

/-- The scalar ends in front of the colon behind a key. -/
theorem takePlain_colon (h : atBlankOrEnd cs = true) : takePlain false indent (':' :: cs) = ⟨[], false, ':' :: cs⟩ := by
  have hend : endsChunk false ':' cs = true := by simp [endsChunk, h]
  have hchunk : takeChunk false (':' :: cs) = ([], ':' :: cs) := by rw [takeChunk, hend, if_pos rfl]
  exact takePlain_gap_end hchunk (takeGap_spaces 0 (by decide)) rfl

/-! ## Whole scalars -/

/-- Behind the first character no mark is taken for something else. -/
theorem holdsMark_cons {d : Char} (h : holdsMark (c :: d :: cs) = false) :
    (d = ':' → atBlankOrEnd cs = false) ∧ (c = ' ' → d ≠ '#') ∧ holdsMark (d :: cs) = false := by
  rw [holdsMark, Bool.or_eq_false_iff, Bool.or_eq_false_iff] at h
  refine ⟨?_, ?_, h.2⟩
  · rintro rfl
    simpa using h.1.1
  · rintro rfl rfl
    cases h.1.2

/-- What is written of a text that starts with ink starts with the same character. -/
theorem writePlain_ink (layout : Layout) (column : Nat) (before? : Option Char) (hspace : c ≠ ' ') :
    writePlain layout column before? (c :: cs) = c :: writePlain layout (column + 1) (some c) cs := by
  rw [writePlain, if_neg (by simp [isLoneSpace, hspace])]

theorem writePlain_run (layout : Layout) (column : Nat) (cs : List Char) :
    writePlain layout column (some ' ') (' ' :: cs) = ' ' :: writePlain layout (column + 1) (some ' ') cs := by
  rw [writePlain, if_neg (by simp [isLoneSpace])]

/-- What is written of a text that starts with no blank starts with none either. -/
theorem atBlankOrEnd_writePlain (layout : Layout) (column : Nat) (before? : Option Char) (rest : List Char)
    (h : atBlankOrEnd cs = false) : atBlankOrEnd (writePlain layout column before? cs ++ rest) = false := by
  cases cs with
  | nil => cases h
  | cons d ds =>
    have hd : d ≠ ' ' := by
      rintro rfl
      cases h
    rw [writePlain_ink layout column before? hd]
    exact h

/-- A character of a plain text is read as a part of it. -/
theorem endsChunk_writePlain (layout : Layout) (column : Nat) (rest : List Char) (hvisible : isVisible c = true)
    (hspace : c ≠ ' ') (hcolon : c = ':' → atBlankOrEnd cs = false) :
    endsChunk false c (writePlain layout column (some c) cs ++ rest) = false := by
  have hink := isVisible_ink hvisible hspace
  have hmark : (c == ':' && atBlankOrEnd (writePlain layout column (some c) cs ++ rest)) = false := by
    by_cases hc : c = ':'
    · simp [atBlankOrEnd_writePlain layout column (some c) rest (hcolon hc)]
    · simp [hc]
  simp [endsChunk, hink, hmark]

/-- Behind a space a plain text goes on. -/
theorem goesOn_writePlain (layout : Layout) (column : Nat) (rest : List Char) (hvisible : Visible text)
    (hmark : holdsMark (' ' :: text) = false) (hlast : (' ' :: text).getLast? ≠ some ' ') :
    GoesOn (writePlain layout column (some ' ') text ++ rest) := by
  induction text generalizing column with
  | nil => exact absurd rfl hlast
  | cons c cs ih =>
    obtain ⟨hcolon, hcomment, hothers⟩ := holdsMark_cons hmark
    by_cases hspace : c = ' '
    · subst hspace
      have hlast : (' ' :: cs).getLast? ≠ some ' ' := by simpa [List.getLast?_cons_cons] using hlast
      obtain ⟨count, d, ds, hrest, hd⟩ :=
        ih (column + 1) (fun d hd => hvisible d (List.mem_cons_of_mem _ hd)) hothers hlast
      rw [writePlain_run]
      exact ⟨count + 1, d, ds, by rw [List.cons_append, hrest, List.replicate_succ, List.cons_append], hd⟩
    · rw [writePlain_ink layout column (some ' ') hspace]
      exact ⟨0, c, _, rfl, hcomment rfl, endsChunk_writePlain layout _ _ (hvisible c List.mem_cons_self) hspace hcolon⟩

/-- The rest of a plain text is read as it is. -/
theorem takePlain_writePlain_from (hindent : 0 < layout.indent) (hdeep : indent ≤ layout.indent)
    (hrest : takePlain false indent rest = ⟨[], endsLine, behind⟩) (column : Nat) (before? : Option Char)
    (hvisible : Visible text) (hmark : holdsMark text = false)
    (hfirst : ∀ cs, text = ':' :: cs → atBlankOrEnd cs = false) (hlast : text.getLast? ≠ some ' ') :
    takePlain false indent (writePlain layout column before? text ++ rest) = ⟨text, endsLine, behind⟩ := by
  induction text generalizing column before? with
  | nil => exact hrest
  | cons c cs ih =>
    have hcs : Visible cs := fun d hd => hvisible d (List.mem_cons_of_mem c hd)
    have hothers : holdsMark cs = false ∧ (∀ ds, cs = ':' :: ds → atBlankOrEnd ds = false) := by
      cases cs with
      | nil => exact ⟨rfl, nofun⟩
      | cons d ds =>
        obtain ⟨hcolon, -, hothers⟩ := holdsMark_cons hmark
        exact ⟨hothers, fun es heq => by cases heq; exact hcolon rfl⟩
    have hcslast : cs.getLast? ≠ some ' ' := by
      cases cs with
      | nil => nofun
      | cons d ds => simpa [List.getLast?_cons_cons] using hlast
    have hread := fun column before? => ih column before? hcs hothers.1 hothers.2 hcslast
    by_cases hspace : c = ' '
    · subst hspace
      rw [writePlain]
      split
      · -- a space at which the line is folded; a chunk follows it
        rename_i hfold
        simp only [isLoneSpace, Bool.and_eq_true, beq_iff_eq, bne_iff_ne] at hfold
        cases cs with
        | nil => exact absurd rfl hlast
        | cons d ds =>
          have hd : d ≠ ' ' := by simpa using hfold.1.2
          obtain ⟨hcolon, hcomment, -⟩ := holdsMark_cons hmark
          have hink := endsChunk_writePlain layout (layout.indent + 1) rest (hcs d List.mem_cons_self) hd hcolon
          have hbehind := hread layout.indent (some ' ')
          rw [writePlain_ink layout layout.indent (some ' ') hd, List.cons_append] at hbehind
          rw [writePlain_ink layout layout.indent (some ' ') hd, List.append_assoc, List.cons_append,
            takePlain_fold hindent hdeep (hcomment rfl) hink, hbehind]
          rfl
      · rw [List.cons_append, takePlain_space (goesOn_writePlain layout _ rest hcs hmark hlast), hread]
        rfl
    · rw [writePlain_ink layout column before? hspace, List.cons_append,
        takePlain_ink (endsChunk_writePlain layout _ rest (hvisible c List.mem_cons_self) hspace
          fun hc => hfirst cs (by rw [hc])), hread]
      rfl

/-- What a text that may stand without quotes holds. -/
structure IsPlain (text : List Char) : Prop where
  visible : Visible text
  mark : holdsMark text = false
  start : startsWithMark text = false
  first : text.head? ≠ some ' '
  last : text.getLast? ≠ some ' '
  document : startsLikeDocument text = false

theorem isPlain_of_allowsPlain (h : allowsPlain text = true) : IsPlain text := by
  simp only [allowsPlain, Bool.and_eq_true, Bool.not_eq_true', hasOuterSpace, Bool.or_eq_false_iff,
    beq_eq_false_iff_ne] at h
  obtain ⟨⟨⟨⟨⟨hline, hshow⟩, houter⟩, hdocument⟩, hstart⟩, hmark⟩ := h
  refine ⟨fun c hc => ?_, hmark, hstart, houter.1, houter.2, hdocument⟩
  have hbreak := List.all_eq_true.mp hline c hc
  have hwritten := List.all_eq_true.mp hshow c hc
  have hfeed : c ≠ '\n' := by
    rintro rfl
    cases hbreak
  simpa [hfeed] using hwritten

/-- A plain scalar is read back. -/
theorem takePlain_writePlain (hindent : 0 < layout.indent) (hdeep : indent ≤ layout.indent)
    (hrest : takePlain false indent rest = ⟨[], endsLine, behind⟩) (column : Nat) (hplain : IsPlain text) :
    takePlain false indent (writePlain layout column none text ++ rest) = ⟨text, endsLine, behind⟩ := by
  have hfirst : ∀ cs, text = ':' :: cs → atBlankOrEnd cs = false := by
    rintro cs rfl
    have hstart := hplain.start
    rw [startsWithMark, Bool.or_eq_false_iff] at hstart
    simpa using hstart.2
  exact takePlain_writePlain_from hindent hdeep hrest column none hplain.visible hplain.mark hfirst hplain.last

end ResolverWiring.Yaml
