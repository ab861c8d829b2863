import ResolverWiring.Proofs.Yaml.ScalarTokens

/-!
# `Proofs.Yaml.TreeTokens` — the tokens of a written tree

`PrintTree.tokensBehind` gives the tokens that stand for a node, and the lexer finds just these in what is written
of a tree of data (`yields_writeBehind`, an induction on the tree along the writer). Collections that are indented
have a token for their start and one for their end; the items of a sequence below a key have neither.

`lex_writeDocument` is the result for whole documents that are mappings.
-/

namespace ResolverWiring.Yaml

open LexState

variable {rest : List Char} {kinds : List TokenKind} {indents outer : List Nat} {keyAllowed : Bool}

namespace PrintTree

/-! ## Tokens -/

mutual

/-- The tokens of a node that stands behind a mark or key. -/
def tokensBehind (position : Position) : PrintTree → List TokenKind
  | .alias _ => []
  | .scalar _ tag text => [.scalar text (styleOf tag text = .plain)]
  | .sequence items =>
    if items.isEmpty then [.flowSequenceStart, .flowSequenceEnd]
    else match position with
      | .behindMark => .blockSequenceStart :: (itemTokens items ++ [.blockEnd])
      | .behindKey => itemTokens items
  | .mapping _ _ entries =>
    if entries.isEmpty then [.flowMappingStart, .flowMappingEnd]
    else .blockMappingStart :: (entryTokens entries ++ [.blockEnd])

/-- The tokens of the items of a sequence. -/
def itemTokens : List PrintTree → List TokenKind
  | [] => []
  | item :: others => .blockEntry :: (tokensBehind .behindMark item ++ itemTokens others)

/-- The tokens of the entries of a mapping. -/
def entryTokens : List (PrintTree × PrintTree) → List TokenKind
  | [] => []
  | (key, value) :: others =>
    .key :: (tokensBehind .behindMark key ++ .value
      :: (tokensBehind (if key.isSimpleKey then .behindKey else .behindMark) value ++ entryTokens others))

end

theorem tokensBehind_scalar (position : Position) (anchor? : Option AnchorNumber) (tag : CoreTag) (text : List Char) :
    tokensBehind position (.scalar anchor? tag text) = [.scalar text (styleOf tag text = .plain)] := rfl

theorem tokensBehind_items {position : Position} {items : List PrintTree} (h : items ≠ []) :
    tokensBehind position (.sequence items) = match position with
      | .behindMark => .blockSequenceStart :: (itemTokens items ++ [.blockEnd])
      | .behindKey => itemTokens items := by
  cases position <;> rw [tokensBehind, if_neg (by simpa using h)]

theorem tokensBehind_entries {position : Position} {anchor? : Option AnchorNumber} {isSet : Bool}
    {entries : List (PrintTree × PrintTree)} (h : entries ≠ []) :
    tokensBehind position (.mapping anchor? isSet entries) = .blockMappingStart :: (entryTokens entries ++ [.blockEnd]) := by
  rw [tokensBehind, if_neg (by simpa using h)]

/-! ## Starts -/

/-- Behind a mark a node starts on the same line. -/
theorem writeBehind_mark {tree : PrintTree} (h : tree.IsData) (indent column : Nat) :
    ∃ cs, writeBehind .behindMark indent column tree = ' ' :: cs := by
  cases tree with
  | «alias» _ => exact h.elim
  | scalar _ _ _ => exact ⟨_, rfl⟩
  | sequence items =>
    by_cases hitems : items = []
    · exact ⟨_, by rw [hitems, writeBehind_noItems]⟩
    · exact ⟨_, writeBehind_items _ _ hitems⟩
  | mapping _ _ entries =>
    obtain ⟨rfl, rfl, -⟩ := h
    by_cases hentries : entries = []
    · exact ⟨_, by rw [hentries, writeBehind_noEntries]⟩
    · exact ⟨_, writeBehind_entries _ _ hentries⟩

/-- Behind a mark or key there is a blank. -/
theorem blank_writeBehind {tree : PrintTree} {position : Position} (h : tree.IsData) (indent column : Nat) (rest : List Char) :
    atBlankOrEnd (writeBehind position indent column tree ++ rest) = true := by
  cases position with
  | behindMark =>
    obtain ⟨cs, hcs⟩ := writeBehind_mark h indent column
    rw [hcs]
    rfl
  | behindKey =>
    cases tree with
    | «alias» _ => exact h.elim
    | scalar _ _ _ => rfl
    | sequence items =>
      by_cases hitems : items = []
      · rw [hitems]
        rfl
      · rw [writeBehind_items _ _ hitems]
        rfl
    | mapping _ _ entries =>
      obtain ⟨rfl, rfl, -⟩ := h
      by_cases hentries : entries = []
      · rw [hentries]
        rfl
      · rw [writeBehind_entries _ _ hentries]
        rfl

/-- A mark with a blank behind it starts a line. -/
theorem startsLine_mark {c : Char} (hblank : atBlankOrEnd rest = true) (hc : StartsToken [c]) : StartsLine (c :: rest) :=
  ⟨startsToken_cons.mpr (startsToken_cons.mp hc), atDocumentMarker_mark hblank c⟩

/-- A key that stays on its line starts this line. -/
theorem startsLine_key {layout : Layout} (hfolds : layout.folds = false) (column : Nat) (text rest : List Char) :
    StartsLine (writeScalar layout column .string text ++ ':' :: rest) := by
  have hdata : ScalarIsData .string text := .inr rfl
  refine ⟨startsToken_writeScalar hdata layout column _, ?_⟩
  unfold writeScalar
  rcases hdata.style with ⟨hstyle, hplain, -⟩ | ⟨-, ⟨hstyle, -⟩ | hstyle⟩
  · rw [hstyle]
    dsimp only
    rw [writePlain_unfolded hfolds]
    exact hplain.atDocumentMarker_key rest
  · rw [hstyle]
    rfl
  · rw [hstyle]
    rfl

theorem stack_cons (indent : Nat) (text other : List Char) (others : List (List Char)) :
    stack indent (text :: other :: others) = text ++ (newLine indent ++ stack indent (other :: others)) := by
  rw [stack, List.intercalate_cons_cons, ← stack, List.append_assoc]

theorem stack_singleton (indent : Nat) (text : List Char) : stack indent [text] = text :=
  List.intercalate_singleton

/-- What stands behind the first of several lines: the next one, or what is behind them all. -/
theorem exists_behind {indent below : Nat} (text : List Char) {texts : List (List Char)} (hbelow : below ≤ indent)
    (hstart : StartsLine rest) (hlast : texts = [] → Yields rest below indents true kinds)
    (hmore : texts ≠ [] → StartsLine (stack indent texts ++ (newLine below ++ rest))
      ∧ Yields (stack indent texts ++ (newLine below ++ rest)) indent indents true kinds) :
    ∃ below' ≤ indent, ∃ rest', stack indent (text :: texts) ++ (newLine below ++ rest) = text ++ (newLine below' ++ rest')
      ∧ StartsLine rest' ∧ Yields rest' below' indents true kinds := by
  cases texts with
  | nil => exact ⟨below, hbelow, rest, by rw [stack_singleton], hstart, hlast rfl⟩
  | cons other others =>
    obtain ⟨hother, hyields⟩ := hmore (List.cons_ne_nil _ _)
    exact ⟨indent, Nat.le_refl _, _, by rw [stack_cons, List.append_assoc, List.append_assoc], hother, hyields⟩

/-- A stack of lines starts with the first of them. -/
theorem exists_stack (indent : Nat) (text : List Char) (texts : List (List Char)) (rest : List Char) :
    ∃ behind, stack indent (text :: texts) ++ rest = text ++ behind := by
  cases texts with
  | nil => exact ⟨rest, by rw [stack_singleton]⟩
  | cons other others => exact ⟨_, by rw [stack_cons, List.append_assoc]⟩

/-- The items of a sequence start with a dash. -/
theorem stack_items {items : List PrintTree} (hdata : ItemsAreData items) (hitems : items ≠ []) (indent : Nat)
    (rest : List Char) :
    ∃ cs, stack indent (writeItems indent items) ++ rest = '-' :: cs ∧ atBlankOrEnd cs = true := by
  obtain ⟨item, others, rfl⟩ := List.exists_cons_of_ne_nil hitems
  rw [writeItems]
  obtain ⟨behind, hbehind⟩ := exists_stack indent ('-' :: writeBehind .behindMark indent (indent + 1) item)
    (writeItems indent others) rest
  exact ⟨_, hbehind, blank_writeBehind hdata.1 _ _ _⟩

theorem startsLine_items {items : List PrintTree} (hdata : ItemsAreData items) (hitems : items ≠ []) (indent : Nat)
    (rest : List Char) : StartsLine (stack indent (writeItems indent items) ++ rest) := by
  obtain ⟨cs, hcs, hblank⟩ := stack_items hdata hitems indent rest
  rw [hcs]
  exact startsLine_mark hblank (by simp)

theorem startsLine_entries {entries : List (PrintTree × PrintTree)} (hdata : EntriesAreData entries) (hentries : entries ≠ [])
    (indent : Nat) (rest : List Char) : StartsLine (stack indent (writeEntries indent entries) ++ rest) := by
  obtain ⟨⟨key, value⟩, others, rfl⟩ := List.exists_cons_of_ne_nil hentries
  obtain ⟨⟨text, rfl, -⟩, -⟩ := hdata
  rw [writeEntries]
  split
  · rw [writeInline_scalar (by decide)]
    obtain ⟨behind, hbehind⟩ := exists_stack indent _ (writeEntries indent others) rest
    rw [hbehind, List.append_assoc]
    exact startsLine_key rfl indent text _
  · obtain ⟨behind, hbehind⟩ := exists_stack indent _ (writeEntries indent others) rest
    rw [hbehind]
    refine startsLine_mark ?_ (by simp)
    rw [writeBehind_scalar _ _ (by decide)]
    rfl

/-! ## Scalars and keys -/

theorem keeps_of_keepsScalar {layout : Layout} {tag : CoreTag} {text : List Char}
    (h : keepsScalar layout tag text = true) : styleOf tag text = .double → layout.Keeps text := by
  intro hstyle _ hfar
  simpa [keepsScalar, hstyle, hfar] using h

/-- A scalar behind a mark or key. -/
theorem yields_scalarBehind {indent place below : Nat} {tag : CoreTag} {text : List Char} (column : Nat)
    (hdata : ScalarIsData tag text) (hkeeps : keepsScalar ⟨indent + indentStep, true⟩ tag text = true)
    (hplace : indent < place) (hbelow : below ≤ indent) (hstart : StartsLine rest)
    (h : Yields rest below (indent :: outer) true kinds) :
    Yields (' ' :: writeScalar ⟨indent + indentStep, true⟩ column tag text ++ (newLine below ++ rest)) place
      (indent :: outer) keyAllowed (.scalar text (styleOf tag text = .plain) :: kinds) := by
  have hdeep : indent < indent + indentStep := Nat.lt_add_of_pos_right (by decide)
  exact yields_space (startsToken_writeScalar hdata _ column _)
    (yields_scalar hdata (keeps_of_keepsScalar hkeeps) hdeep (Nat.lt_succ_of_lt hplace) hbelow hstart h column)

/-- A key that stays on its line is not too long. -/
theorem length_simpleKey {layout : Layout} {text : List Char} (hkey : text.length ≤ maxKeyText ∨ Visible text)
    (hsimple : (PrintTree.scalar none .string text).isSimpleKey = true) (hfolds : layout.folds = false) (column : Nat) :
    (writeScalar layout column .string text).length ≤ maxKeyLength := by
  obtain ⟨hshort, -, hline⟩ := isSimpleKey_scalar.mp hsimple
  obtain ⟨-, hlong, hvisible⟩ := visible_writeKey hline hfolds column
  have hlimits : maxKeyText = 100 ∧ keyLimit = 128 ∧ maxKeyLength = 1024 := ⟨rfl, rfl, rfl⟩
  rcases hkey with hkey | hkey
  · omega
  · have := hvisible hkey
    omega

theorem openedAt_self (column : Nat) (outer : List Nat) :
    openedAt column (column :: outer) = column :: outer ∧ startsAt column (column :: outer) = [] := by
  simp [openedAt, startsAt]

theorem openedAt_deeper {column : Nat} (h : ∀ d ∈ indents.head?, d < column) :
    openedAt column indents = column :: indents ∧ startsAt column indents = [.blockMappingStart] := by
  have hall : indents.head?.all (· < column) = true := by simpa [Option.all_eq_true] using h
  simp [openedAt, startsAt, hall]

/-- A key that stays on its line, in front of what is behind its colon. -/
theorem yields_simpleKey {indent : Nat} {text : List Char} (hkey : text.length ≤ maxKeyText ∨ Visible text)
    (hsimple : (PrintTree.scalar none .string text).isSimpleKey = true) (hopen : ∀ d ∈ indents.head?, d ≤ indent)
    (hblank : atBlankOrEnd rest = true)
    (h : ∀ place, indent < place → Yields rest place (openedAt indent indents) false kinds) :
    Yields (writeScalar ⟨indent + indentStep, false⟩ indent .string text ++ ':' :: rest) indent indents true
      (startsAt indent indents ++ .key :: .scalar text (styleOf .string text = .plain) :: .value :: kinds) := by
  have hdeep : indents.head?.elim 0 (· + 1) ≤ indent + indentStep := by
    cases hhead : indents.head? with
    | none => exact Nat.zero_le _
    | some d => exact Nat.add_le_add (hopen d hhead) (by decide)
  exact yields_keyAt (isSimpleKey_scalar.mp hsimple).2.2 indent (length_simpleKey hkey hsimple rfl indent) rfl
    (Nat.add_pos_right indent (by decide)) hdeep hopen hblank h

/-- A key with a mark in front, and the colon on the next line. -/
theorem yields_markedKey {indent column : Nat} {text : List Char}
    (hkeeps : keepsBehind .behindMark indent (.scalar none .string text) = true)
    (hopened : openedAt indent indents = indent :: outer) (hblank : atBlankOrEnd rest = true)
    (h : Yields rest (indent + 1) (indent :: outer) true kinds) :
    Yields ('?' :: (writeBehind .behindMark indent column (.scalar none .string text) ++ (newLine indent ++ ':' :: rest)))
      indent indents true
      (startsAt indent indents ++ .key :: .scalar text (styleOf .string text = .plain) :: .value :: kinds) := by
  have hcolon := yields_colon hblank h
  rw [writeBehind_scalar _ _ (by decide)]
  have hkey := yields_question rfl (yields_scalarBehind (column + 1) (.inr rfl) hkeeps (Nat.lt_succ_self indent)
    (Nat.le_refl indent) (startsLine_mark hblank (by simp)) hcolon)
  -- the first key opens the mapping; the others find it open
  by_cases hdeeper : indents.head?.all (· < indent) = true
  · have houter : outer = indents := by simpa [openedAt, hdeeper] using hopened.symm
    subst houter
    rw [startsAt, if_pos hdeeper]
    exact yields_blockMapping rfl (by simpa [Option.all_eq_true] using hdeeper) hkey
  · have hindents : indents = indent :: outer := by simpa [openedAt, hdeeper] using hopened
    rw [startsAt, if_neg hdeeper, hindents]
    exact hkey

/-! ## Trees -/

mutual

/-- The tokens of what is written of a node behind a mark or key. -/
theorem yields_writeBehind {rest : List Char} {kinds : List TokenKind} {outer : List Nat} {keyAllowed : Bool}
    {position : Position} {indent place below : Nat} (column : Nat) (hplace : indent < place)
    (hmark : position = .behindMark → place = indent + 1 ∧ keyAllowed = true) (hbelow : below ≤ indent)
    (hstart : StartsLine rest) (h : Yields rest below (indent :: outer) true kinds) : ∀ {tree : PrintTree},
    tree.IsData → keepsBehind position indent tree = true →
    Yields (writeBehind position indent column tree ++ (newLine below ++ rest)) place (indent :: outer) keyAllowed
      (tokensBehind position tree ++ kinds)
  | .alias _, hdata, _ => hdata.elim
  | .scalar anchor? tag text, hdata, hkeeps => by
    obtain ⟨rfl, hscalar⟩ := hdata
    rw [writeBehind_scalar _ _ hscalar.ne_binary]
    exact yields_scalarBehind _ hscalar hkeeps hplace hbelow hstart h
  | .sequence items, hdata, hkeeps => by
    by_cases hitems : items = []
    · subst hitems
      rw [writeBehind_noItems]
      refine yields_space (by simp) (yields_noItems ?_ hstart.token h)
      simpa using Nat.lt_succ_of_lt hplace
    · rw [writeBehind_items _ _ hitems, tokensBehind_items hitems]
      cases position with
      | behindMark =>
        -- the items are indented
        obtain ⟨rfl, rfl⟩ := hmark rfl
        have hinner : indent < indent + indentStep := Nat.lt_add_of_pos_right (by decide)
        have hend := yields_blockEnd hstart.token (Nat.lt_of_le_of_lt hbelow hinner) h
        have hyields := yields_writeItems (Nat.le_trans hbelow (Nat.le_of_lt hinner)) hstart hend hitems hdata hkeeps
        obtain ⟨cs, hcs, hblank⟩ := stack_items hdata hitems (indent + indentStep) (newLine below ++ rest)
        simp only [List.cons_append, List.append_assoc, List.nil_append]
        refine yields_space (startsLine_items hdata hitems _ _).token ?_
        rw [hcs] at hyields ⊢
        exact yields_blockSequence hblank (fun d hd => by cases hd; exact hinner) hyields
      | behindKey =>
        have hyields := yields_writeItems hbelow hstart h hitems hdata hkeeps
        rw [List.append_assoc]
        exact yields_newLine (startsLine_items hdata hitems _ _).token hyields
  | .mapping anchor? isSet entries, hdata, hkeeps => by
    obtain ⟨rfl, rfl, hdata⟩ := hdata
    by_cases hentries : entries = []
    · subst hentries
      rw [writeBehind_noEntries]
      refine yields_space (by simp) (yields_noEntries ?_ hstart.token h)
      simpa using Nat.lt_succ_of_lt hplace
    · have hinner : indent < indent + indentStep := Nat.lt_add_of_pos_right (by decide)
      have hdeeper : ∀ d ∈ (indent :: outer).head?, d < indent + indentStep := by simpa using hinner
      have hopened := openedAt_deeper hdeeper
      have hend := yields_blockEnd hstart.token (Nat.lt_of_le_of_lt hbelow hinner) h
      have hyields := yields_writeEntries hopened.1 (fun d hd => Nat.le_of_lt (hdeeper d hd))
        (Nat.le_trans hbelow (Nat.le_of_lt hinner)) hstart hend hentries hdata hkeeps
      have htoken := (startsLine_entries hdata hentries (indent + indentStep) (newLine below ++ rest)).token
      rw [hopened.2] at hyields
      rw [writeBehind_entries _ _ hentries, tokensBehind_entries hentries]
      simp only [List.cons_append, List.append_assoc, List.nil_append] at hyields ⊢
      cases position with
      | behindMark =>
        obtain ⟨rfl, rfl⟩ := hmark rfl
        exact yields_space htoken hyields
      | behindKey => exact yields_newLine htoken hyields

/-- The tokens of what is written of the items of a sequence. -/
theorem yields_writeItems {rest : List Char} {kinds : List TokenKind} {outer : List Nat} {indent below : Nat}
    (hbelow : below ≤ indent) (hstart : StartsLine rest) (h : Yields rest below (indent :: outer) true kinds) : ∀ {items : List PrintTree}, items ≠ [] →
    ItemsAreData items → keepsItems indent items = true →
    Yields (stack indent (writeItems indent items) ++ (newLine below ++ rest)) indent (indent :: outer) true
      (itemTokens items ++ kinds)
  | [], hitems, _, _ => absurd rfl hitems
  | item :: others, _, hdata, hkeeps => by
    obtain ⟨hitem, hothers⟩ := hdata
    rw [keepsItems, Bool.and_eq_true] at hkeeps
    have hempty : writeItems indent others = [] ↔ others = [] := by cases others <;> simp [writeItems]
    have hlast : writeItems indent others = [] → Yields rest below (indent :: outer) true (itemTokens others ++ kinds) := by
      intro hnone
      rw [hempty.mp hnone]
      exact h
    obtain ⟨below', hbelow', rest', heq, hstart', hyields⟩ := exists_behind
      ('-' :: writeBehind .behindMark indent (indent + 1) item) hbelow hstart hlast
      fun hsome => ⟨startsLine_items hothers (fun hnone => hsome (hempty.mpr hnone)) _ _,
        yields_writeItems hbelow hstart h (fun hnone => hsome (hempty.mpr hnone)) hothers hkeeps.2⟩
    rw [writeItems, heq, itemTokens]
    simp only [List.cons_append, List.append_assoc]
    exact yields_dash (blank_writeBehind hitem _ _ _) (yields_writeBehind _ (Nat.lt_succ_self _) (fun _ => ⟨rfl, rfl⟩)
      hbelow' hstart' hyields hitem hkeeps.1)

/-- The tokens of what is written of the entries of a mapping, which is started if it is deeper than all that is
open. -/
theorem yields_writeEntries {rest : List Char} {kinds : List TokenKind} {indents outer : List Nat} {indent below : Nat}
    (hopened : openedAt indent indents = indent :: outer)
    (hopen : ∀ d ∈ indents.head?, d ≤ indent) (hbelow : below ≤ indent) (hstart : StartsLine rest)
    (h : Yields rest below (indent :: outer) true kinds) : ∀ {entries : List (PrintTree × PrintTree)}, entries ≠ [] →
    EntriesAreData entries → keepsEntries indent entries = true →
    Yields (stack indent (writeEntries indent entries) ++ (newLine below ++ rest)) indent indents true
      (startsAt indent indents ++ (entryTokens entries ++ kinds))
  | [], hentries, _, _ => absurd rfl hentries
  | (key, value) :: others, _, hdata, hkeeps => by
    obtain ⟨⟨text, rfl, hkey⟩, hvalue, hothers⟩ := hdata
    rw [keepsEntries, Bool.and_eq_true] at hkeeps
    have hempty : writeEntries indent others = [] ↔ others = [] := by cases others <;> simp [writeEntries]
    -- behind the first entry the mapping is open, so nothing starts any more
    have hself := openedAt_self indent outer
    have hfurther : others ≠ [] → Yields (stack indent (writeEntries indent others) ++ (newLine below ++ rest)) indent
        (indent :: outer) true (entryTokens others ++ kinds) := by
      intro hsome
      have hyields := yields_writeEntries hself.1 (by simp) hbelow hstart h hsome hothers hkeeps.2
      rwa [hself.2, List.nil_append] at hyields
    have hlast : writeEntries indent others = [] → Yields rest below (indent :: outer) true (entryTokens others ++ kinds) := by
      intro hnone
      rw [hempty.mp hnone]
      exact h
    have hbehind := fun text => exists_behind text hbelow hstart hlast
      fun hsome => ⟨startsLine_entries hothers (fun hnone => hsome (hempty.mpr hnone)) _ _,
        hfurther fun hnone => hsome (hempty.mpr hnone)⟩
    by_cases hsimple : (PrintTree.scalar none .string text).isSimpleKey = true
    · rw [if_pos hsimple] at hkeeps
      rw [writeEntries, if_pos hsimple, writeInline_scalar (by decide), entryTokens, if_pos hsimple]
      obtain ⟨below', hbelow', rest', heq, hstart', hyields⟩ := hbehind _
      rw [heq]
      simp only [tokensBehind_scalar, List.append_assoc, List.cons_append, List.nil_append]
      refine yields_simpleKey hkey hsimple hopen (blank_writeBehind hvalue _ _ _) fun place hplace => ?_
      have hmark : Position.behindKey = .behindMark → place = indent + 1 ∧ false = true := nofun
      rw [hopened]
      exact yields_writeBehind _ hplace hmark hbelow' hstart' hyields hvalue hkeeps.1
    · rw [if_neg hsimple, Bool.and_eq_true] at hkeeps
      rw [writeEntries, if_neg hsimple, entryTokens, if_neg hsimple]
      obtain ⟨below', hbelow', rest', heq, hstart', hyields⟩ := hbehind _
      rw [heq]
      simp only [tokensBehind_scalar, List.append_assoc, List.cons_append, List.nil_append]
      refine yields_markedKey hkeeps.1.1 hopened (blank_writeBehind hvalue _ _ _) ?_
      exact yields_writeBehind _ (Nat.lt_succ_self _) (fun _ => ⟨rfl, rfl⟩) hbelow' hstart' hyields hvalue hkeeps.1.2

end

/-! ## Documents -/

/-- The tokens of what is written of a mapping. -/
theorem lex_writeDocument {entries : List (PrintTree × PrintTree)} (hdata : EntriesAreData entries)
    (hkeeps : keepsEntries 0 entries = true) :
    (lex (PrintTree.mapping none false entries).writeDocument).map (·.kind)
      = tokensBehind .behindMark (.mapping none false entries) ++ [.streamEnd] := by
  have hstart : StartsLine [] := ⟨startsToken_nil, rfl⟩
  have hyields : Yields (PrintTree.mapping none false entries).writeDocument 0 [] true
      (tokensBehind .behindMark (.mapping none false entries) ++ [.streamEnd]) := by
    by_cases hentries : entries = []
    · subst hentries
      have hend : Yields [] 0 [] true [.streamEnd] := yields_nil nofun
      exact yields_noEntries (by simp) startsToken_nil hend
    · have hend : Yields [] 0 [0] true [.blockEnd, .streamEnd] := yields_nil (by simp)
      have hopened : openedAt 0 [] = [0] ∧ startsAt 0 [] = [.blockMappingStart] := openedAt_deeper nofun
      have hyields := yields_writeEntries hopened.1 nofun (Nat.le_refl 0) hstart hend hentries hdata hkeeps
      rw [hopened.2] at hyields
      rw [writeDocument_entries hentries, tokensBehind_entries hentries]
      simpa [newLine] using hyields
  exact (hyields (written_writeDocument hdata) .start [] rfl).run _ (Nat.lt_succ_self _)

end PrintTree

end ResolverWiring.Yaml
