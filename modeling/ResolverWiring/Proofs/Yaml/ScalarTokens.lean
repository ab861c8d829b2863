import ResolverWiring.Proofs.Yaml.DataTree
import ResolverWiring.Proofs.Yaml.Lexing

/-!
# `Proofs.Yaml.ScalarTokens` — the tokens of written scalars

A written scalar is one token with its text, whichever style it has (`fetch_writeScalar`). It is either followed by
a line that is not indented more than the collection around it (`yields_scalar`), or it is a key and followed by a
colon, at which the token of the key is inserted (`yields_keyAt`). Brackets are two tokens (`yields_noItems`,
`yields_noEntries`).
-/

namespace ResolverWiring.Yaml

open PrintTree

variable {c : Char} {cs rest behind text : List Char} {tag : CoreTag} {layout : Layout}

/-- Whether a text is at its end or in front of a token, but not in front of a document marker. -/
structure StartsLine (cs : List Char) : Prop where
  token : StartsToken cs
  marker : atDocumentMarker cs = false

theorem StartsLine.indented (h : StartsLine cs) (count : Nat) :
    atDocumentMarker (List.replicate count ' ' ++ cs) = false := by
  cases count with
  | zero => exact h.marker
  | succ count => exact atDocumentMarker_indented (Nat.succ_pos count) cs

theorem StartsToken.startsInk (h : StartsToken cs) (hwritten : Written cs) : StartsInk cs := by
  intro c hc
  obtain ⟨hspace, hfeed, -⟩ := h c hc
  have hvisible : isVisible c = true := by
    simpa [isWritten, hfeed] using hwritten c (List.mem_of_mem_head? hc)
  exact isVisible_ink hvisible hspace

/-! ## The first character of a plain scalar -/

/-- A plain text starts with a character that means nothing else there. -/
theorem IsPlain.first_mark (h : IsPlain (c :: cs)) : c ∉ "#,[]\x7b\x7d&*!|>'\"%@`".toList
    ∧ (c = '?' ∨ c = ':' ∨ c = '-' → atBlankOrEnd cs = false) := by
  have hstart := h.start
  rw [startsWithMark, Bool.or_eq_false_iff] at hstart
  refine ⟨by simpa [isLeadingMark] using hstart.1, ?_⟩
  rintro (rfl | rfl | rfl) <;> simpa using hstart.2

theorem IsPlain.startsToken (h : IsPlain (c :: cs)) (rest : List Char) : StartsToken (c :: rest) := by
  have hvisible := visible_cons.mp h.visible
  refine startsToken_cons.mpr ⟨fun hc => h.first (by rw [hc]; rfl), ?_, ?_⟩
  · rintro rfl
    cases hvisible.1
  · rintro rfl
    exact h.first_mark.1 (by decide)

/-- Such a character starts a plain scalar, if what follows it goes on like the text. -/
theorem IsPlain.startsPlain {rest : List Char} (h : IsPlain (c :: cs))
    (hrest : c = '?' ∨ c = ':' ∨ c = '-' → atBlankOrEnd rest = false) : LexState.startsPlain false c rest = true := by
  by_cases hc : c = '?' ∨ c = ':' ∨ c = '-'
  · have hbehind := hrest hc
    rcases hc with rfl | rfl | rfl <;> simp [LexState.startsPlain, hbehind]
  · have hink := isVisible_ink (visible_cons.mp h.visible).1 (startsToken_cons.mp (h.startsToken rest)).1
    have hfirst := h.first_mark.1
    simp only [not_or] at hc
    have hindicator : LexState.isIndicator c = false := by
      simp at hfirst
      simp [LexState.isIndicator, hc, hfirst]
    simp [LexState.startsPlain, hink, hindicator]

/-- A plain text does not start like the marker of a document, neither does a key. -/
theorem IsPlain.atDocumentMarker_key (h : IsPlain text) (rest : List Char) :
    atDocumentMarker (text ++ ':' :: rest) = false := by
  have hdocument := h.document
  match text with
  | [] => rfl
  | [a] => simp [atDocumentMarker]
  | [a, b] => simp [atDocumentMarker]
  | a :: b :: d :: ds =>
    simp only [startsLikeDocument, Bool.or_eq_false_iff] at hdocument
    unfold atDocumentMarker
    split
    · rename_i heq
      cases heq
      exact absurd hdocument.1 (by simp)
    · rename_i heq
      cases heq
      exact absurd hdocument.2 (by simp)
    · rfl

/-- A written scalar starts a token. -/
theorem startsToken_writeScalar (hdata : ScalarIsData tag text) (layout : Layout) (column : Nat) (rest : List Char) :
    StartsToken (writeScalar layout column tag text ++ rest) := by
  unfold writeScalar
  rcases hdata.style with ⟨hstyle, hplain, htext, -⟩ | ⟨-, ⟨hstyle, -⟩ | hstyle⟩
  · obtain ⟨c, cs, rfl⟩ := List.exists_cons_of_ne_nil htext
    have hspace : c ≠ ' ' := (startsToken_cons.mp (hplain.startsToken [])).1
    rw [hstyle]
    dsimp only
    rw [writePlain_ink layout column none hspace]
    exact hplain.startsToken _
  · rw [hstyle]
    exact startsToken_cons.mpr (by decide)
  · rw [hstyle]
    exact startsToken_cons.mpr (by decide)

namespace LexState

variable {mark : Mark} {column below : Nat} {indents outer : List Nat} {keyAllowed endsLine : Bool} {tokens : List Token}
  {kinds : List TokenKind}

/-! ## Taking a scalar -/

/-- The key that may start at a place. -/
def pendingHere (keyAllowed : Bool) (mark : Mark) (indents : List Nat) (tokens : List Token) : List PendingKey :=
  if keyAllowed then [⟨0, tokens.length, indents.head? == some mark.column, mark⟩] else []

theorem savePending_eq (rest : List Char) (mark : Mark) (indents : List Nat) (keyAllowed : Bool) (tokens : List Token) :
    (⟨rest, mark, 0, indents, keyAllowed, [], tokens⟩ : LexState).savePending
      = .ok ⟨rest, mark, 0, indents, keyAllowed, pendingHere keyAllowed mark indents tokens, tokens⟩ := by
  cases keyAllowed
  · rfl
  · simp [savePending, pendingHere, removePending, forget, Except.map]

/-- A scalar in quotes. -/
theorem fetch_quoted (style : QuoteStyle) (hread : takeQuoted style cs = .ok (text, rest)) :
    fetch ⟨style.quote :: cs, mark, 0, indents, keyAllowed, [], tokens⟩ style.quote cs
      = .ok (moveTo ⟨style.quote :: cs, mark, 0, indents, false, pendingHere keyAllowed mark indents tokens,
          ⟨.scalar text false, mark⟩ :: tokens⟩ rest) := by
  have hstart : fetch ⟨style.quote :: cs, mark, 0, indents, keyAllowed, [], tokens⟩ style.quote cs
      = takeKeyStart ⟨style.quote :: cs, mark, 0, indents, keyAllowed, [], tokens⟩ (.scalar · false)
        (takeQuoted style cs) := by
    cases style <;> simp [fetch, QuoteStyle.quote, atDocumentMarker]
  rw [hstart, takeKeyStart, savePending_eq, hread]
  rfl

/-- A scalar without quotes. -/
theorem fetch_plain (hplain : IsPlain (c :: text)) (hread : takePlain false (indents.head?.elim 0 (· + 1)) (c :: cs)
      = ⟨c :: text, endsLine, behind⟩) (hcs : c = '?' ∨ c = ':' ∨ c = '-' → atBlankOrEnd cs = false)
    (hmarker : mark.column = 0 → atDocumentMarker (c :: cs) = false) :
    fetch ⟨c :: cs, mark, 0, indents, keyAllowed, [], tokens⟩ c cs
      = .ok (moveTo ⟨c :: cs, mark, 0, indents, endsLine, pendingHere keyAllowed mark indents tokens,
          ⟨.scalar (c :: text) true, mark⟩ :: tokens⟩ behind) := by
  have hmark : ∀ m, m = '?' ∨ m = ':' ∨ m = '-' → (c == m && atBlankOrEnd cs) = false := by
    rintro m hm
    by_cases hc : c = m
    · rw [hcs (hc ▸ hm), Bool.and_false]
    · simp [hc]
  have hmarker : (decide (mark.column = 0) && atDocumentMarker (c :: cs)) = false := by
    by_cases hcolumn : mark.column = 0
    · simp [hmarker hcolumn]
    · simp [hcolumn]
  have hstart : fetch ⟨c :: cs, mark, 0, indents, keyAllowed, [], tokens⟩ c cs
      = plainScalar ⟨c :: cs, mark, 0, indents, keyAllowed, [], tokens⟩ := by
    have hfirst := hplain.first_mark.1
    simp at hfirst
    rw [fetch]
    simp [hfirst, hmark, hmarker, hplain.startsPlain hcs]
  rw [hstart, plainScalar, savePending_eq]
  simp only [Except.map, Nat.lt_irrefl, decide_false, hread]
  rfl

/-- A written scalar in any style. -/
theorem fetch_writeScalar (mark : Mark) (indents : List Nat) (keyAllowed : Bool) (tokens : List Token) (column : Nat)
    (hdata : ScalarIsData tag text) (hkeeps : styleOf tag text = .double → layout.Keeps text)
    (hindent : 0 < layout.indent) (hdeep : indents.head?.elim 0 (· + 1) ≤ layout.indent)
    (hquote : rest.head? ≠ some '\'')
    (hread : takePlain false (indents.head?.elim 0 (· + 1)) rest = ⟨[], endsLine, behind⟩)
    (hmarker : mark.column = 0 → IsPlain text → atDocumentMarker (writePlain layout column none text ++ rest) = false) :
    ∃ c cs, writeScalar layout column tag text = c :: cs
      ∧ fetch ⟨c :: (cs ++ rest), mark, 0, indents, keyAllowed, [], tokens⟩ c (cs ++ rest)
        = .ok (moveTo ⟨c :: (cs ++ rest), mark, 0, indents, styleOf tag text = .plain && endsLine,
            pendingHere keyAllowed mark indents tokens, ⟨.scalar text (styleOf tag text = .plain), mark⟩ :: tokens⟩
          (if styleOf tag text = .plain then behind else rest)) := by
  unfold writeScalar
  rcases hdata.style with ⟨hstyle, hplain, htext, -⟩ | ⟨-, ⟨hstyle, hallows⟩ | hstyle⟩
  · obtain ⟨c, cs, rfl⟩ := List.exists_cons_of_ne_nil htext
    have hspace : c ≠ ' ' := (startsToken_cons.mp (hplain.startsToken [])).1
    have hwrite : writePlain layout column none (c :: cs) = c :: writePlain layout (column + 1) (some c) cs :=
      writePlain_ink layout column none hspace
    have htake := takePlain_writePlain hindent hdeep hread column hplain
    rw [hwrite] at htake hmarker
    rw [hstyle, hwrite]
    refine ⟨c, writePlain layout (column + 1) (some c) cs, rfl, ?_⟩
    exact fetch_plain hplain htake (fun hc => atBlankOrEnd_writePlain _ _ _ _ (hplain.first_mark.2 hc))
      fun hcolumn => hmarker hcolumn hplain
  · rw [hstyle]
    refine ⟨'\'', writeSingle layout (column + 1) none text ++ ['\''], rfl, ?_⟩
    rw [List.append_assoc]
    exact fetch_quoted .single (takeQuoted_single hindent hquote (column + 1) hallows)
  · rw [hstyle]
    refine ⟨'"', writeDouble layout (column + 1) true false text ++ ['"'], rfl, ?_⟩
    rw [List.append_assoc]
    exact fetch_quoted .double (takeQuoted_double hindent hquote (column + 1) (hkeeps hstyle))

/-! ## Scalars as values -/

/-- What starts deeper than the innermost block collection need not be a key. -/
theorem optional_pendingHere (hhead : indents.head? ≠ some mark.column) :
    Optional mark.line (pendingHere keyAllowed mark indents tokens) := by
  intro key hkey
  unfold pendingHere at hkey
  split at hkey
  · rw [List.mem_singleton.mp hkey]
    exact ⟨by simpa using hhead, Nat.le_refl _⟩
  · cases hkey

/-- A token is taken, at which keys may be pending that need not be keys. -/
theorem Ends.taken (taken : List Char) {keyBehind : Bool} {pending : List PendingKey} {token : Token}
    (hcs : c :: cs = taken ++ rest) (htaken : Written taken) (hne : taken ≠ [])
    (hseek : seek ⟨c :: cs, mark, 0, indents, keyAllowed, [], tokens⟩
      = .ok ⟨c :: cs, mark, 0, indents, keyAllowed, [], tokens⟩)
    (hfetch : fetch ⟨c :: cs, mark, 0, indents, keyAllowed, [], tokens⟩ c cs
      = .ok (moveTo ⟨c :: cs, mark, 0, indents, keyBehind, pending, token :: tokens⟩ rest))
    (hpending : Optional mark.line pending)
    (h : ∀ pending, Optional mark.line pending →
      Ends ⟨rest, mark.past taken, 0, indents, keyBehind, pending, token :: tokens⟩ kinds) :
    Ends ⟨c :: cs, mark, 0, indents, keyAllowed, [], tokens⟩ kinds := by
  have hlength : rest.length < (c :: cs).length := by
    rw [hcs, List.length_append]
    exact Nat.lt_add_of_pos_left (List.length_pos_of_ne_nil hne)
  refine .token hseek rfl ?_ hlength (h _ (hpending.filter (!isStale (mark.past taken) ·)))
  rw [hfetch, hcs, moveTo_append htaken]
  exact forget_eq fun key hkey _ => (hpending key hkey).1

/-- A scalar that is followed by a line that is not deeper. -/
theorem yields_scalar {inner : Nat} (hdata : ScalarIsData tag text)
    (hkeeps : styleOf tag text = .double → layout.Keeps text) (hindent : inner < layout.indent) (hcolumn : inner < column)
    (hbelow : below ≤ inner) (hstart : StartsLine rest) (h : Yields rest below (inner :: outer) true kinds)
    (start : Nat) :
    Yields (writeScalar layout start tag text ++ (newLine below ++ rest)) column (inner :: outer) keyAllowed
      (.scalar text (styleOf tag text = .plain) :: kinds) := by
  rintro hwritten mark tokens rfl
  obtain ⟨hscalar, hline⟩ := written_append.mp hwritten
  have hrest := (written_append.mp hline).2
  have hread : takePlain false (inner + 1) (newLine below ++ rest) = ⟨[], true, rest⟩ :=
    takePlain_newLine (Nat.lt_succ_of_le hbelow) (hstart.token.startsInk hrest) (hstart.indented below)
  have hpending : Optional mark.line (pendingHere keyAllowed mark (inner :: outer) tokens) :=
    optional_pendingHere (by simpa using Nat.ne_of_lt hcolumn)
  have htoken := startsToken_writeScalar hdata layout start (newLine below ++ rest)
  obtain ⟨c, cs, hcs, hfetch⟩ := fetch_writeScalar mark (inner :: outer) keyAllowed tokens start hdata hkeeps
    (Nat.zero_lt_of_lt hindent) hindent (by simp [newLine]) hread
    fun hzero => absurd (hzero ▸ hcolumn) (Nat.not_lt_zero _)
  rw [hcs] at hscalar htoken
  have hseek := seek_self mark (inner :: outer) keyAllowed [] tokens htoken
    (written_append.mpr ⟨hscalar, hline⟩) (by simpa using Nat.le_of_lt hcolumn) (by simp)
  have hkinds : ∀ plain, kindsOf tokens ++ .scalar text plain :: kinds
      = kindsOf (⟨.scalar text plain, mark⟩ :: tokens) ++ kinds := by simp
  rw [hcs, hkinds]
  by_cases hplain : styleOf tag text = .plain
  · -- the line end is taken along with the scalar
    simp only [hplain, if_true, decide_true, Bool.true_and] at hfetch ⊢
    refine Ends.taken (c :: cs ++ newLine below) (by simp)
      (written_append.mpr ⟨hscalar, written_newLine below⟩) (by simp) hseek hfetch hpending fun pending hpending => ?_
    have hplace : (mark.past (c :: cs ++ newLine below)).column = below
        ∧ mark.line < (mark.past (c :: cs ++ newLine below)).line := by
      rw [Mark.past_append, Mark.past_newLine]
      exact ⟨rfl, Nat.lt_succ_of_le (Mark.line_le_past _ _)⟩
    refine Ends.skip [] (by simp) hstart.token hrest (fun key hkey => ?_) ?_
    · exact ⟨(hpending key hkey).1, Nat.lt_of_le_of_lt (hpending key hkey).2 hplace.2⟩
    · show Yields rest (mark.past (c :: cs ++ newLine below)).column _ _ _
      rw [hplace.1]
      exact h
  · simp only [hplain, if_false, decide_false, Bool.false_and] at hfetch ⊢
    refine Ends.taken (c :: cs) rfl hscalar (by simp) hseek hfetch hpending fun pending hpending => ?_
    refine Ends.skipLine hstart.token hrest (fun key hkey => ?_) h
    exact ⟨(hpending key hkey).1, Nat.le_trans (hpending key hkey).2 (Mark.line_le_past _ _)⟩

/-! ## Keys -/

theorem forget_fresh {pending : List PendingKey} {gone : PendingKey → Bool} {level : Nat}
    (h : ∀ key ∈ pending, gone key = false) :
    (⟨rest, mark, level, indents, keyAllowed, pending, tokens⟩ : LexState).forget gone
      = .ok ⟨rest, mark, level, indents, keyAllowed, pending, tokens⟩ := by
  have hfilter : pending.filter (!gone ·) = pending := by
    rw [List.filter_eq_self]
    intro key hkey
    simp [h key hkey]
  rw [forget_eq fun key hkey hgone => absurd hgone (by simp [h key hkey]), hfilter]

/-- A token is inserted behind all those but the last ones. -/
theorem insertAt_behind {level : Nat} {pending : List PendingKey} (last : List Token) (kind : TokenKind) (place : Mark) :
    (⟨rest, mark, level, indents, keyAllowed, pending, last ++ tokens⟩ : LexState).insertAt tokens.length kind place
      = ⟨rest, mark, level, indents, keyAllowed, pending, last ++ ⟨kind, place⟩ :: tokens⟩ := by
  rw [insertAt]
  simp

/-- The collections that are open behind a key. -/
def openedAt (column : Nat) (indents : List Nat) : List Nat :=
  if indents.head?.all (· < column) then column :: indents else indents

/-- The tokens in front of that of a key. -/
def startsAt (column : Nat) (indents : List Nat) : List TokenKind :=
  if indents.head?.all (· < column) then [.blockMappingStart] else []

/-- The colon behind a key that is pending inserts its token in front of that of the key, and starts a mapping if the
key is deeper than all block collections. -/
theorem value_pending {key : PendingKey} {scalar : Token} (hlevel : key.level = 0) (hnumber : key.number = tokens.length) :
    value ⟨':' :: rest, mark, 0, indents, keyAllowed, [key], scalar :: tokens⟩
      = .ok (consume ⟨':' :: rest, mark, 0, openedAt key.mark.column indents, false, [], scalar :: ⟨.key, key.mark⟩
          :: ((startsAt key.mark.column indents).map (⟨·, key.mark⟩) ++ tokens)⟩ .value 1) := by
  have hkey : insertAt ⟨':' :: rest, mark, 0, indents, false, [], scalar :: tokens⟩ tokens.length .key key.mark
      = ⟨':' :: rest, mark, 0, indents, false, [], scalar :: ⟨.key, key.mark⟩ :: tokens⟩ :=
    insertAt_behind [scalar] .key key.mark
  have hstart : insertAt ⟨':' :: rest, mark, 0, indents, false, [], scalar :: ⟨.key, key.mark⟩ :: tokens⟩ tokens.length
        .blockMappingStart key.mark
      = ⟨':' :: rest, mark, 0, indents, false, [],
          scalar :: ⟨.key, key.mark⟩ :: ⟨.blockMappingStart, key.mark⟩ :: tokens⟩ :=
    insertAt_behind [scalar, ⟨.key, key.mark⟩] .blockMappingStart key.mark
  have hfind : [key].find? (·.level == 0) = some key := by simp [hlevel]
  have hfilter : [key].filter (·.level != 0) = [] := by simp [hlevel]
  rw [value]
  dsimp only
  rw [hfind, hfilter]
  dsimp only
  rw [hnumber, hkey, hstart, isDeeper, openedAt, startsAt]
  by_cases hdeeper : indents.head?.all (· < key.mark.column) = true
  · simp [hdeeper]
  · simp [hdeeper]

theorem kindsOf_startsAt (column : Nat) (indents : List Nat) (mark : Mark) (tokens : List Token) :
    kindsOf ((startsAt column indents).map (⟨·, mark⟩) ++ tokens) = kindsOf tokens ++ startsAt column indents := by
  unfold startsAt
  split <;> simp

/-- What starts on the same line, and not too far in front, can still be a key. -/
theorem isStale_near {m : Mark} {number : Nat} {required : Bool} (hline : m.line = mark.line)
    (hindex : m.index ≤ mark.index + maxKeyLength) : isStale m ⟨0, number, required, mark⟩ = false := by
  simpa [isStale, hline] using hindex

/-- The scalar of a key that stays on its line is taken, and can be a key still. -/
theorem take_keyScalar (mark : Mark) (tokens : List Token) (hline : isOneLine text = true) (start : Nat)
    (hlength : (writeScalar layout start .string text).length ≤ maxKeyLength) (hfolds : layout.folds = false)
    (hindent : 0 < layout.indent) (hdeep : indents.head?.elim 0 (· + 1) ≤ layout.indent)
    (hblank : atBlankOrEnd rest = true) :
    ∃ c cs, writeScalar layout start .string text = c :: cs
      ∧ (fetch ⟨c :: (cs ++ ':' :: rest), mark, 0, indents, true, [], tokens⟩ c (cs ++ ':' :: rest) >>= dropStale)
        = .ok ⟨':' :: rest, mark.past (c :: cs), 0, indents, false, pendingHere true mark indents tokens,
            ⟨.scalar text (styleOf .string text = .plain), mark⟩ :: tokens⟩ := by
  have hkeeps : styleOf .string text = .double → layout.Keeps text := fun _ hfold => absurd hfold (by simp [hfolds])
  have hmarker : mark.column = 0 → IsPlain text →
      atDocumentMarker (writePlain layout start none text ++ ':' :: rest) = false := by
    intro _ hplain
    rw [writePlain_unfolded hfolds]
    exact hplain.atDocumentMarker_key rest
  obtain ⟨c, cs, hcs, hfetch⟩ := fetch_writeScalar mark indents true tokens start (.inr rfl) hkeeps hindent hdeep
    (by simp) (takePlain_colon hblank) hmarker
  obtain ⟨hvisible, -⟩ := visible_writeKey hline hfolds start
  rw [hcs] at hvisible hlength
  refine ⟨c, cs, hcs, ?_⟩
  simp only [Bool.and_false, ite_self] at hfetch
  rw [hfetch, ← List.cons_append, moveTo_append hvisible.written]
  refine forget_fresh fun key hkey => ?_
  rw [List.mem_singleton.mp hkey, Mark.past_visible mark hvisible]
  exact isStale_near rfl (Nat.add_le_add_left hlength _)

/-- The colon behind a key that is pending. -/
theorem take_colon (place : Mark) {key : PendingKey} {scalar : Token} (hlevel : key.level = 0)
    (hnumber : key.number = tokens.length) (hblank : atBlankOrEnd rest = true) :
    (fetch ⟨':' :: rest, place, 0, indents, false, [key], scalar :: tokens⟩ ':' rest >>= dropStale)
      = .ok ⟨rest, ⟨place.index + 1, place.line, place.column + 1⟩, 0, openedAt key.mark.column indents, false, [],
          ⟨.value, place⟩ :: scalar :: ⟨.key, key.mark⟩
            :: ((startsAt key.mark.column indents).map (⟨·, key.mark⟩) ++ tokens)⟩ := by
  rw [fetch, atDocumentMarker_mark hblank]
  simp [hblank, value_pending hlevel hnumber, consume_cons, isVisible]
  rfl

/-- A key that stays on its line, and the colon behind it. -/
theorem yields_keyAt (hline : isOneLine text = true) (start : Nat)
    (hlength : (writeScalar layout start .string text).length ≤ maxKeyLength) (hfolds : layout.folds = false)
    (hindent : 0 < layout.indent) (hdeep : indents.head?.elim 0 (· + 1) ≤ layout.indent)
    (hopen : ∀ d ∈ indents.head?, d ≤ column) (hblank : atBlankOrEnd rest = true)
    (h : ∀ place, column < place → Yields rest place (openedAt column indents) false kinds) :
    Yields (writeScalar layout start .string text ++ ':' :: rest) column indents true
      (startsAt column indents ++ .key :: .scalar text (styleOf .string text = .plain) :: .value :: kinds) := by
  rintro hwritten mark tokens rfl
  have hcolon := (written_append.mp hwritten).2
  have htoken := startsToken_writeScalar (.inr rfl : ScalarIsData .string text) layout start (':' :: rest)
  obtain ⟨hvisible, -⟩ := visible_writeKey hline hfolds start
  obtain ⟨c, cs, hcs, hscalar⟩ := take_keyScalar mark tokens hline start hlength hfolds hindent hdeep hblank
  rw [hcs] at hvisible hwritten hlength htoken ⊢
  have hplace := Mark.past_visible mark hvisible
  have hcolumn : mark.column < (mark.past (c :: cs)).column := by
    rw [hplace]
    exact Nat.lt_add_of_pos_right (Nat.succ_pos _)
  have hlonger : (':' :: rest).length < (c :: cs ++ ':' :: rest).length := by
    rw [List.length_append]
    exact Nat.lt_add_of_pos_left (Nat.succ_pos _)
  refine .token (seek_self _ _ _ _ _ htoken hwritten hopen (by simp)) rfl hscalar hlonger ?_
  -- at the colon the key is still pending
  have hfresh : ∀ key ∈ pendingHere true mark indents tokens, isStale (mark.past (c :: cs)) key = false := by
    intro key hkey
    rw [List.mem_singleton.mp hkey, hplace]
    exact isStale_near rfl (Nat.add_le_add_left hlength _)
  have hseek := seek_self (mark.past (c :: cs)) indents false (pendingHere true mark indents tokens)
    (⟨.scalar text (styleOf .string text = .plain), mark⟩ :: tokens) (by simp) hcolon
    (fun d hd => Nat.le_trans (hopen d hd) (Nat.le_of_lt hcolumn)) hfresh
  refine .token hseek rfl (take_colon _ rfl rfl hblank) (Nat.lt_succ_self _) ?_
  have hbehind := h _ (Nat.lt_succ_of_lt hcolumn) (written_cons.mp hcolon).2
    ⟨(mark.past (c :: cs)).index + 1, (mark.past (c :: cs)).line, (mark.past (c :: cs)).column + 1⟩
    (⟨.value, mark.past (c :: cs)⟩ :: ⟨.scalar text (styleOf .string text = .plain), mark⟩ :: ⟨.key, mark⟩
      :: ((startsAt mark.column indents).map (⟨·, mark⟩) ++ tokens)) rfl
  simpa [kindsOf_startsAt] using hbehind

/-! ## Brackets -/

/-- In a flow collection indentation does not count. -/
theorem seek_flow {level : Nat} {pending : List PendingKey} (hstart : StartsToken (c :: rest)) (hc : isVisible c = true)
    (hpending : ∀ key ∈ pending, key.required = false) :
    (⟨c :: rest, mark, level + 1, indents, keyAllowed, pending, tokens⟩ : LexState).seek
      = .ok ⟨c :: rest, mark, level + 1, indents, keyAllowed, pending.filter (!isStale mark ·), tokens⟩ := by
  obtain ⟨hspace, hfeed, hcomment⟩ := startsToken_cons.mp hstart
  have hmark : (mark.index = 0 && (c :: rest).head? == some '\ufeff') = false := by
    have hne : c ≠ '\ufeff' := by
      rintro rfl
      cases hc
    simp [hne]
  have hskip : skipToToken false false (c :: rest) = (false, c :: rest) := by
    simp [skipToToken, (isVisible_plain hc).1, hspace, hcomment]
  have hmove : moveTo ⟨[] ++ c :: rest, mark, level + 1, indents, keyAllowed, pending, tokens⟩ (c :: rest)
      = ⟨c :: rest, mark, level + 1, indents, keyAllowed, pending, tokens⟩ := moveTo_append written_nil
  rw [List.nil_append] at hmove
  rw [seek, hmark, if_neg Bool.false_ne_true, hskip]
  dsimp only
  rw [hmove, Bool.false_and, Bool.or_false]
  show Except.map _ (forget _ (isStale mark)) = _
  rw [forget_eq fun key hkey _ => hpending key hkey]
  rfl

/-- An opening bracket. -/
theorem take_opening (rest : List Char) (keyAllowed : Bool) (tokens : List Token) {kind : TokenKind}
    (hopen : ∀ s cs, fetch s c cs = s.openFlow kind) (hc : isVisible c = true) (hhead : indents.head? ≠ some mark.column) :
    ∃ pending, Optional mark.line pending
      ∧ (fetch ⟨c :: rest, mark, 0, indents, keyAllowed, [], tokens⟩ c rest >>= dropStale)
        = .ok ⟨rest, ⟨mark.index + 1, mark.line, mark.column + 1⟩, 1, indents, true, pending, ⟨kind, mark⟩ :: tokens⟩ := by
  have hpending : Optional mark.line (pendingHere keyAllowed mark indents tokens) := optional_pendingHere hhead
  refine ⟨_, hpending.filter (!isStale ⟨mark.index + 1, mark.line, mark.column + 1⟩ ·), ?_⟩
  rw [hopen, openFlow, savePending_eq]
  show dropStale (consume ⟨c :: rest, mark, 1, indents, true, _, tokens⟩ kind 1) = _
  rw [consume_cons hc]
  exact forget_eq fun key hkey _ => (hpending key hkey).1

/-- A closing bracket. -/
theorem take_closing (rest : List Char) (indents : List Nat) (keyAllowed : Bool) (tokens : List Token)
    {pending : List PendingKey} {kind : TokenKind} (hclose : ∀ s cs, fetch s c cs = s.closeFlow kind)
    (hc : isVisible c = true) (hpending : Optional mark.line pending) :
    ∃ pending', Optional mark.line pending'
      ∧ (fetch ⟨c :: rest, mark, 1, indents, keyAllowed, pending, tokens⟩ c rest >>= dropStale)
        = .ok ⟨rest, ⟨mark.index + 1, mark.line, mark.column + 1⟩, 0, indents, false, pending', ⟨kind, mark⟩ :: tokens⟩ := by
  have hinside := hpending.filter fun key => !(key.level == 1)
  refine ⟨_, hinside.filter (!isStale ⟨mark.index + 1, mark.line, mark.column + 1⟩ ·), ?_⟩
  rw [hclose, closeFlow, removePending, forget_eq fun key hkey _ => (hpending key hkey).1]
  show dropStale (consume ⟨c :: rest, mark, 0, indents, false, _, tokens⟩ kind 1) = _
  rw [consume_cons hc]
  exact forget_eq fun key hkey _ => (hinside key hkey).1

/-- An empty flow collection. -/
theorem Ends.brackets {opening closing : Char} {first last : TokenKind}
    (hopen : ∀ s cs, fetch s opening cs = s.openFlow first) (hclose : ∀ s cs, fetch s closing cs = s.closeFlow last)
    (hopening : StartsToken (opening :: closing :: (newLine below ++ rest)))
    (hclosing : StartsToken (closing :: (newLine below ++ rest)))
    (hwritten : Written (opening :: closing :: (newLine below ++ rest))) (hstart : StartsToken rest)
    (hdeep : ∀ d ∈ indents.head?, d ≤ mark.column) (hhead : indents.head? ≠ some mark.column)
    (h : Yields rest below indents true kinds) :
    Ends ⟨opening :: closing :: (newLine below ++ rest), mark, 0, indents, keyAllowed, [], tokens⟩
      (kindsOf tokens ++ first :: last :: kinds) := by
  have hvisible : ∀ {c cs}, StartsToken (c :: cs) → Written (c :: cs) → isVisible c = true := by
    intro c cs hc hcs
    simpa [isWritten, (startsToken_cons.mp hc).2.1] using (written_cons.mp hcs).1
  have hinside := (written_cons.mp hwritten).2
  let inside : Mark := ⟨mark.index + 1, mark.line, mark.column + 1⟩
  obtain ⟨pending, hpending, hfirst⟩ := take_opening (closing :: (newLine below ++ rest)) keyAllowed tokens hopen
    (hvisible hopening hwritten) hhead
  have hfresh : Optional inside.line (pending.filter (!isStale inside ·)) := hpending.filter _
  obtain ⟨pending', hpending', hlast⟩ := take_closing (newLine below ++ rest) indents true (⟨first, mark⟩ :: tokens) hclose
    (hvisible hclosing hinside) hfresh
  have hkinds : kindsOf tokens ++ first :: last :: kinds
      = kindsOf (⟨last, inside⟩ :: ⟨first, mark⟩ :: tokens) ++ kinds := by simp
  rw [hkinds]
  refine .token (seek_self mark indents keyAllowed [] tokens hopening hwritten hdeep (by simp)) rfl hfirst
    (Nat.lt_succ_self _) ?_
  refine .token (seek_flow hclosing (hvisible hclosing hinside) fun key hkey => (hpending key hkey).1) rfl hlast
    (Nat.lt_succ_self _) ?_
  exact Ends.skipLine hstart (written_append.mp (written_cons.mp hinside).2).2 hpending' h

theorem yields_noItems (hdeep : ∀ d ∈ indents.head?, d < column) (hstart : StartsToken rest)
    (h : Yields rest below indents true kinds) :
    Yields ('[' :: ']' :: (newLine below ++ rest)) column indents keyAllowed
      (.flowSequenceStart :: .flowSequenceEnd :: kinds) := by
  rintro hwritten mark tokens rfl
  refine Ends.brackets ?_ ?_ (by simp) (by simp) hwritten hstart (fun d hd => Nat.le_of_lt (hdeep d hd))
    (fun hhead => Nat.lt_irrefl _ (hdeep _ hhead)) h
  all_goals
    intro s cs
    simp [fetch, atDocumentMarker]

theorem yields_noEntries (hdeep : ∀ d ∈ indents.head?, d < column) (hstart : StartsToken rest)
    (h : Yields rest below indents true kinds) :
    Yields ('\x7b' :: '\x7d' :: (newLine below ++ rest)) column indents keyAllowed
      (.flowMappingStart :: .flowMappingEnd :: kinds) := by
  rintro hwritten mark tokens rfl
  refine Ends.brackets ?_ ?_ (by simp) (by simp) hwritten hstart (fun d hd => Nat.le_of_lt (hdeep d hd))
    (fun hhead => Nat.lt_irrefl _ (hdeep _ hhead)) h
  all_goals
    intro s cs
    simp [fetch, atDocumentMarker]

end LexState

end ResolverWiring.Yaml
