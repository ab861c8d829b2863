import ResolverWiring.Proofs.Yaml.Written
import ResolverWiring.Yaml.Token.Lexer

/-!
# `Proofs.Yaml.Lexing` — what the lexer makes of a written text

`Yields` says which tokens the lexer adds when it stands in front of a text, from what it has opened so far: the
column, the open block collections, and whether a key may start. There is a lemma for each mark and for each way to
get to the next token, from the text behind it to the text in front of it, so that the tokens of a whole document
are found from its end to its start.

The texts are written ones, so places in them are easy to follow (`Mark.past`).
-/

namespace ResolverWiring.Yaml

variable {c : Char} {cs ds rest : List Char}

/-! ## Places in written texts -/

namespace Mark

/-- The place behind a written text. -/
def past (m : Mark) : List Char → Mark
  | [] => m
  | c :: cs => past (if c = '\n' then ⟨m.index + 1, m.line + 1, 0⟩ else ⟨m.index + 1, m.line, m.column + 1⟩) cs

theorem after_eq (m : Mark) (next? : Option Char) (h : isWritten c = true) :
    m.after c next? = if c = '\n' then ⟨m.index + 1, m.line + 1, 0⟩ else ⟨m.index + 1, m.line, m.column + 1⟩ := by
  by_cases hfeed : c = '\n'
  · subst hfeed
    rfl
  · have hvisible : isVisible c = true := by simpa [isWritten, hfeed] using h
    have hmark : c ≠ '\ufeff' := by
      rintro rfl
      cases hvisible
    simp [after, hfeed, (isVisible_plain hvisible).1, hmark]

theorem advance_append (m : Mark) (h : Written cs) (rest : List Char) : m.advance (cs ++ rest) cs.length = m.past cs := by
  induction cs generalizing m with
  | nil => exact advance.eq_1 m rest
  | cons c cs ih =>
    obtain ⟨hc, hcs⟩ := written_cons.mp h
    show (m.after c _).advance (cs ++ rest) cs.length = _
    rw [ih _ hcs, after_eq m _ hc]
    rfl

theorem past_append (m : Mark) (cs ds : List Char) : m.past (cs ++ ds) = (m.past cs).past ds := by
  induction cs generalizing m with
  | nil => rfl
  | cons c cs ih => exact ih _

theorem past_visible (m : Mark) (h : Visible cs) : m.past cs = ⟨m.index + cs.length, m.line, m.column + cs.length⟩ := by
  induction cs generalizing m with
  | nil => rfl
  | cons c cs ih =>
    obtain ⟨hc, hcs⟩ := visible_cons.mp h
    have hfeed : c ≠ '\n' := by
      rintro rfl
      cases hc
    rw [past, if_neg hfeed, ih _ hcs, List.length_cons]
    simp only [Mark.mk.injEq, true_and]
    omega

theorem past_newLine (m : Mark) (indent : Nat) : m.past (newLine indent) = ⟨m.index + 1 + indent, m.line + 1, indent⟩ := by
  have hspaces := past_visible ⟨m.index + 1, m.line + 1, 0⟩ (visible_spaces indent)
  rw [List.length_replicate, Nat.zero_add] at hspaces
  exact hspaces

theorem line_le_past (m : Mark) (cs : List Char) : m.line ≤ (m.past cs).line := by
  induction cs generalizing m with
  | nil => exact Nat.le_refl _
  | cons c cs ih =>
    refine Nat.le_trans ?_ (ih _)
    split
    · exact Nat.le_succ _
    · exact Nat.le_refl _

end Mark

/-! ## Tokens ahead -/

/-- Whether a text is at its end or in front of a token. -/
def StartsToken (cs : List Char) : Prop := ∀ c ∈ cs.head?, c ≠ ' ' ∧ c ≠ '\n' ∧ c ≠ '#'

@[simp] theorem startsToken_nil : StartsToken [] := nofun

@[simp] theorem startsToken_cons : StartsToken (c :: cs) ↔ c ≠ ' ' ∧ c ≠ '\n' ∧ c ≠ '#' := by simp [StartsToken]

namespace LexState

variable {s t u : LexState} {mark : Mark} {level column below : Nat} {indents : List Nat} {keyAllowed : Bool}
  {pending : List PendingKey} {tokens : List Token}

/-- The kinds of tokens, the last one of which is given first. -/
def kindsOf (tokens : List Token) : List TokenKind := tokens.reverse.map (·.kind)

@[simp] theorem kindsOf_cons (kind : TokenKind) (mark : Mark) (tokens : List Token) :
    kindsOf (⟨kind, mark⟩ :: tokens) = kindsOf tokens ++ [kind] := by simp [kindsOf]

/-- The lexer gets from a state to the end of the text, and its tokens are of these kinds. -/
inductive Ends : LexState → List TokenKind → Prop
  | atEnd {s t u : LexState} : s.seek = .ok t → t.rest = [] → t.finish = .ok u → Ends s (kindsOf u.tokens)
  | token {s t u : LexState} {c : Char} {cs : List Char} {kinds : List TokenKind} : s.seek = .ok t → t.rest = c :: cs →
      (t.fetch c cs >>= dropStale) = .ok u → u.rest.length < s.rest.length → Ends u kinds → Ends s kinds

theorem Ends.run {kinds : List TokenKind} (h : Ends s kinds) :
    ∀ bound, s.rest.length < bound → (s.run bound).map (·.kind) = kinds := by
  induction h with
  | atEnd hseek hrest hfinish =>
    intro bound hbound
    obtain ⟨bound, rfl⟩ := Nat.exists_eq_succ_of_ne_zero (Nat.ne_zero_of_lt hbound)
    rw [LexState.run, hseek]
    dsimp only
    rw [hrest]
    dsimp only
    rw [hfinish]
    rfl
  | token hseek hrest hfetch hlength _ ih =>
    intro bound hbound
    obtain ⟨bound, rfl⟩ := Nat.exists_eq_succ_of_ne_zero (Nat.ne_zero_of_lt hbound)
    rw [LexState.run, hseek]
    dsimp only
    rw [hrest]
    dsimp only
    rw [hfetch]
    exact ih bound (by omega)

/-- From two states that find the same token the lexer goes on alike. -/
theorem Ends.of_seek {kinds : List TokenKind} (hs : s.seek = .ok u) (ht : t.seek = .ok u)
    (hlength : t.rest.length ≤ s.rest.length) (h : Ends t kinds) : Ends s kinds := by
  cases h with
  | atEnd hseek hrest hfinish =>
    cases ht.symm.trans hseek
    exact .atEnd hs hrest hfinish
  | token hseek hrest hfetch hshorter h =>
    cases ht.symm.trans hseek
    exact .token hs hrest hfetch (Nat.lt_of_lt_of_le hshorter hlength) h

/-- The tokens that are added in front of a written text, from a column on, if these block collections are open,
nothing else is, and no key is pending. -/
def Yields (rest : List Char) (column : Nat) (indents : List Nat) (keyAllowed : Bool) (kinds : List TokenKind) : Prop :=
  Written rest → ∀ mark tokens, mark.column = column →
    Ends ⟨rest, mark, 0, indents, keyAllowed, [], tokens⟩ (kindsOf tokens ++ kinds)

/-! ## Moving on -/

theorem moveTo_append (hwritten : Written cs) :
    (⟨cs ++ rest, mark, level, indents, keyAllowed, pending, tokens⟩ : LexState).moveTo rest
      = ⟨rest, mark.past cs, level, indents, keyAllowed, pending, tokens⟩ := by
  rw [moveTo, markAt, List.length_append, Nat.add_sub_cancel, Mark.advance_append _ hwritten]

theorem consume_cons (hc : isVisible c = true) (kind : TokenKind) :
    (⟨c :: rest, mark, level, indents, keyAllowed, pending, tokens⟩ : LexState).consume kind 1
      = ⟨rest, ⟨mark.index + 1, mark.line, mark.column + 1⟩, level, indents, keyAllowed, pending,
          ⟨kind, mark⟩ :: tokens⟩ := by
  have hvisible : Visible [c] := visible_cons.mpr ⟨hc, visible_nil⟩
  show moveTo ⟨[c] ++ rest, mark, level, indents, keyAllowed, pending, ⟨kind, mark⟩ :: tokens⟩ rest = _
  rw [moveTo_append hvisible.written, Mark.past_visible mark hvisible]
  rfl

theorem forget_eq {gone : PendingKey → Bool} (h : ∀ key ∈ pending, gone key = true → key.required = false) :
    (⟨rest, mark, level, indents, keyAllowed, pending, tokens⟩ : LexState).forget gone
      = .ok ⟨rest, mark, level, indents, keyAllowed, pending.filter (!gone ·), tokens⟩ := by
  have hfind : (pending.find? fun key => gone key && key.required) = none := by
    rw [List.find?_eq_none]
    intro key hkey
    by_cases hgone : gone key = true
    · simp [h key hkey hgone]
    · simp [hgone]
  rw [forget, hfind]

theorem skipToToken_gap {gap : List Char} (hgap : ∀ c ∈ gap, c = ' ' ∨ c = '\n') (hstart : StartsToken rest)
    (hwritten : Written rest) (crossed : Bool) :
    skipToToken false crossed (gap ++ rest) = (crossed || gap.contains '\n', rest) := by
  induction gap generalizing crossed with
  | nil =>
    cases rest with
    | nil => simp [skipToToken]
    | cons c cs =>
      obtain ⟨hspace, hfeed, hcomment⟩ := startsToken_cons.mp hstart
      have hc : isVisible c = true := by simpa [isWritten, hfeed] using (written_cons.mp hwritten).1
      simp [skipToToken, (isVisible_plain hc).1, hspace, hcomment]
  | cons c gap ih =>
    have hinside := ih fun d hd => hgap d (List.mem_cons_of_mem c hd)
    rcases hgap c List.mem_cons_self with rfl | rfl
    · show skipToToken false crossed (gap ++ rest) = _
      simp [hinside]
    · show skipToToken false true (gap ++ rest) = _
      simp [hinside]

/-- Whether a pending key is too far in front of a place to be a key. -/
def isStale (m : Mark) (key : PendingKey) : Bool :=
  key.mark.line != m.line || key.mark.index + maxKeyLength < m.index

/-- The next token is behind spaces and line ends. -/
theorem seek_gap (mark : Mark) (indents : List Nat) (keyAllowed : Bool) (pending : List PendingKey)
    (tokens : List Token) {gap : List Char} (hgap : ∀ c ∈ gap, c = ' ' ∨ c = '\n') (hstart : StartsToken rest)
    (hwritten : Written rest)
    (hpending : ∀ key ∈ pending, isStale (mark.past gap) key = true → key.required = false) :
    (⟨gap ++ rest, mark, 0, indents, keyAllowed, pending, tokens⟩ : LexState).seek
      = .ok (closeBlocks ((mark.past gap).column < ·) ⟨rest, mark.past gap, 0, indents,
          keyAllowed || gap.contains '\n', pending.filter (!isStale (mark.past gap) ·), tokens⟩ indents) := by
  have hspaces : Written gap := by
    intro c hc
    rcases hgap c hc with rfl | rfl <;> decide
  -- the mark of byte order is skipped at the start of a text only, and is not a written character
  have hmark : (mark.index = 0 && (gap ++ rest).head? == some '\ufeff') = false := by
    have hwhole : Written (gap ++ rest) := written_append.mpr ⟨hspaces, hwritten⟩
    cases hcs : gap ++ rest with
    | nil => simp
    | cons c cs =>
      rw [hcs] at hwhole
      have hc : c ≠ '\ufeff' := by
        rintro rfl
        cases (written_cons.mp hwhole).1
      simp [hc]
  rw [seek, hmark, if_neg Bool.false_ne_true, skipToToken_gap hgap hstart hwritten]
  dsimp only
  rw [moveTo_append hspaces, Bool.false_or, decide_eq_true rfl, Bool.and_true]
  show Except.map _ (forget _ (isStale (mark.past gap))) = _
  rw [forget_eq hpending]
  rfl

/-- In front of a token there is nothing to move over. -/
theorem seek_token (mark : Mark) (indents : List Nat) (keyAllowed : Bool) (pending : List PendingKey)
    (tokens : List Token) (hstart : StartsToken rest) (hwritten : Written rest)
    (hpending : ∀ key ∈ pending, isStale mark key = false) :
    (⟨rest, mark, 0, indents, keyAllowed, pending, tokens⟩ : LexState).seek
      = .ok (closeBlocks (mark.column < ·) ⟨rest, mark, 0, indents, keyAllowed, pending, tokens⟩ indents) := by
  have hfilter : pending.filter (!isStale (mark.past []) ·) = pending := by
    rw [List.filter_eq_self]
    intro key hkey
    simp [Mark.past, hpending key hkey]
  have hnone : ∀ c ∈ ([] : List Char), c = ' ' ∨ c = '\n' := nofun
  have hseek := seek_gap mark indents keyAllowed pending tokens hnone hstart hwritten
    fun key hkey hstale => absurd hstale (by simp [Mark.past, hpending key hkey])
  rw [hfilter, List.contains_nil, Bool.or_false] at hseek
  exact hseek

/-- A token at which every open collection goes on. -/
theorem seek_self (mark : Mark) (indents : List Nat) (keyAllowed : Bool) (pending : List PendingKey)
    (tokens : List Token) (hstart : StartsToken rest) (hwritten : Written rest)
    (hdeep : ∀ d ∈ indents.head?, d ≤ mark.column)
    (hpending : ∀ key ∈ pending, isStale mark key = false) :
    (⟨rest, mark, 0, indents, keyAllowed, pending, tokens⟩ : LexState).seek
      = .ok ⟨rest, mark, 0, indents, keyAllowed, pending, tokens⟩ := by
  rw [seek_token mark indents keyAllowed pending tokens hstart hwritten hpending]
  cases indents with
  | nil => rfl
  | cons d outer =>
    have hd : decide (mark.column < d) = false := decide_eq_false (Nat.not_lt.mpr (hdeep d rfl))
    rw [closeBlocks, hd, if_neg Bool.false_ne_true]

/-! ## Spaces and line ends -/

/-- Spaces and line ends are passed over, and keys that were pending in front of a line end are forgotten. -/
theorem Ends.skip (gap : List Char) {kinds : List TokenKind} (hgap : ∀ c ∈ gap, c = ' ' ∨ c = '\n')
    (hstart : StartsToken rest) (hwritten : Written rest)
    (hpending : ∀ key ∈ pending, key.required = false ∧ key.mark.line < (mark.past gap).line)
    (h : Yields rest (mark.past gap).column indents (keyAllowed || gap.contains '\n') kinds) :
    Ends ⟨gap ++ rest, mark, 0, indents, keyAllowed, pending, tokens⟩ (kindsOf tokens ++ kinds) := by
  -- a key that is pending on an earlier line has become stale
  have hfilter : pending.filter (!isStale (mark.past gap) ·) = [] := by
    rw [List.filter_eq_nil_iff]
    intro key hkey
    have hline : (key.mark.line != (mark.past gap).line) = true := by simpa using Nat.ne_of_lt (hpending key hkey).2
    simp [isStale, hline]
  have hseek := seek_gap mark indents keyAllowed pending tokens hgap hstart hwritten
    fun key hkey _ => (hpending key hkey).1
  rw [hfilter] at hseek
  have hbehind := seek_token (mark.past gap) indents (keyAllowed || gap.contains '\n') [] tokens hstart hwritten
    (by simp)
  exact Ends.of_seek hseek hbehind (by simp) (h hwritten _ _ rfl)

/-- A space in front of a token. -/
theorem yields_space {kinds : List TokenKind} (hstart : StartsToken rest)
    (h : Yields rest (column + 1) indents keyAllowed kinds) :
    Yields (' ' :: rest) column indents keyAllowed kinds := by
  rintro hwritten mark tokens rfl
  refine Ends.skip [' '] (by simp) hstart (written_cons.mp hwritten).2 nofun ?_
  simpa [Mark.past] using h

theorem mem_newLine {indent : Nat} (h : c ∈ newLine indent) : c = ' ' ∨ c = '\n' := by
  rcases List.mem_cons.mp h with rfl | h
  · exact .inr rfl
  · exact .inl (List.eq_of_mem_replicate h)

/-- Pending keys on a line or in front of it that need not be keys. -/
def Optional (line : Nat) (pending : List PendingKey) : Prop :=
  ∀ key ∈ pending, key.required = false ∧ key.mark.line ≤ line

theorem Optional.filter {line : Nat} (h : Optional line pending) (stays : PendingKey → Bool) :
    Optional line (pending.filter stays) :=
  fun key hkey => h key (List.mem_filter.mp hkey).1

/-- A line end and the indentation of the next line; keys that were pending are forgotten. -/
theorem Ends.skipLine {kinds : List TokenKind} (hstart : StartsToken rest) (hwritten : Written rest)
    (hpending : Optional mark.line pending) (h : Yields rest below indents true kinds) :
    Ends ⟨newLine below ++ rest, mark, 0, indents, keyAllowed, pending, tokens⟩ (kindsOf tokens ++ kinds) := by
  have hcontains : (newLine below).contains '\n' = true := by simp [newLine]
  refine Ends.skip (newLine below) (fun c => mem_newLine) hstart hwritten (fun key hkey => ?_) ?_
  · rw [Mark.past_newLine]
    exact ⟨(hpending key hkey).1, Nat.lt_succ_of_le (hpending key hkey).2⟩
  · rw [Mark.past_newLine, hcontains, Bool.or_true]
    exact h

theorem yields_newLine {kinds : List TokenKind} (hstart : StartsToken rest) (h : Yields rest below indents true kinds) :
    Yields (newLine below ++ rest) column indents keyAllowed kinds := by
  rintro hwritten mark tokens rfl
  exact Ends.skipLine hstart (written_append.mp hwritten).2 nofun h

/-! ## The ends of collections -/

/-- Which collections were open does not matter once those that go on are given. -/
theorem closeBlocks_indents (isOver : Nat → Bool) (s : LexState) (opened indents : List Nat) :
    closeBlocks isOver { s with indents := opened } indents = closeBlocks isOver s indents := by
  induction indents generalizing s with
  | nil => rfl
  | cons column outer ih =>
    rw [closeBlocks, closeBlocks]
    split
    · exact ih (s.emit .blockEnd s.mark)
    · rfl

/-- A line that is indented less than the innermost block collection ends it. -/
theorem yields_blockEnd {kinds : List TokenKind} {inner : Nat} (hstart : StartsToken rest) (hinner : column < inner)
    (h : Yields rest column indents keyAllowed kinds) :
    Yields rest column (inner :: indents) keyAllowed (.blockEnd :: kinds) := by
  rintro hwritten mark tokens rfl
  have hseek := seek_token mark (inner :: indents) keyAllowed [] tokens hstart hwritten (by simp)
  rw [closeBlocks, decide_eq_true hinner, if_pos rfl] at hseek
  have hbehind := seek_token mark indents keyAllowed [] (⟨.blockEnd, mark⟩ :: tokens) hstart hwritten (by simp)
  have hends := h hwritten mark (⟨.blockEnd, mark⟩ :: tokens) rfl
  rw [kindsOf_cons, List.append_assoc] at hends
  -- the lexer closes the inner collection while it seeks, and seeks no further than it would without it
  exact Ends.of_seek hseek (hbehind.trans (congrArg _ (closeBlocks_indents _ _ _ indents).symm)) (Nat.le_refl _) hends

/-- At the end of the text all collections end. -/
theorem yields_nil (hdeep : ∀ d ∈ indents.head?, d ≤ column) :
    Yields [] column indents keyAllowed (List.replicate indents.length .blockEnd ++ [.streamEnd]) := by
  rintro hwritten mark tokens rfl
  have hclose : ∀ (indents : List Nat) (s : LexState), closeBlocks (fun _ => true) s indents
      = { s with indents := [], tokens := List.replicate indents.length ⟨.blockEnd, s.mark⟩ ++ s.tokens } := by
    intro indents
    induction indents with
    | nil => exact fun _ => rfl
    | cons d outer ih =>
      intro s
      rw [closeBlocks, if_pos rfl, ih (s.emit .blockEnd s.mark), List.length_cons, List.replicate_succ']
      simp [emit]
  have hfinish : (⟨[], mark, 0, indents, keyAllowed, [], tokens⟩ : LexState).finish
      = .ok ⟨[], mark, 0, [], keyAllowed, [],
          ⟨.streamEnd, mark⟩ :: (List.replicate indents.length ⟨.blockEnd, mark⟩ ++ tokens)⟩ := by
    rw [finish, unwind, if_pos rfl, hclose]
    rfl
  have hseek := seek_self mark indents keyAllowed [] tokens startsToken_nil hwritten hdeep (by simp)
  have hends := Ends.atEnd hseek rfl hfinish
  simpa [kindsOf] using hends

/-! ## Marks -/

/-- A mark with a blank behind it starts no document marker. -/
theorem atDocumentMarker_mark (h : atBlankOrEnd rest = true) (c : Char) : atDocumentMarker (c :: rest) = false := by
  have hhead : ∀ d ds, rest = d :: ds → d ≠ '-' ∧ d ≠ '.' := by
    rintro d ds rfl
    constructor <;> rintro rfl <;> cases h
  unfold atDocumentMarker
  split
  · rename_i heq
    cases heq
    exact absurd rfl (hhead _ _ rfl).1
  · rename_i heq
    cases heq
    exact absurd rfl (hhead _ _ rfl).2
  · rfl

/-- A mark that is a token. -/
theorem Ends.single {kind : TokenKind} {kinds : List TokenKind} {keyBehind : Bool} (hstart : StartsToken (c :: rest))
    (hwritten : Written (c :: rest)) (hdeep : ∀ d ∈ indents.head?, d ≤ mark.column)
    (hfetch : fetch ⟨c :: rest, mark, 0, indents, keyAllowed, [], tokens⟩ c rest
      = .ok (consume ⟨c :: rest, mark, 0, indents, keyBehind, [], tokens⟩ kind 1))
    (h : Yields rest (mark.column + 1) indents keyBehind kinds) :
    Ends ⟨c :: rest, mark, 0, indents, keyAllowed, [], tokens⟩ (kindsOf tokens ++ kind :: kinds) := by
  obtain ⟨hc, hrest⟩ := written_cons.mp hwritten
  have hvisible : isVisible c = true := by simpa [isWritten, (startsToken_cons.mp hstart).2.1] using hc
  have hbehind := h hrest ⟨mark.index + 1, mark.line, mark.column + 1⟩ (⟨kind, mark⟩ :: tokens) rfl
  rw [kindsOf_cons, List.append_assoc] at hbehind
  refine .token (seek_self _ _ _ _ _ hstart hwritten hdeep (by simp)) rfl ?_ (Nat.lt_succ_self _) hbehind
  rw [hfetch, consume_cons hvisible]
  rfl

variable {kinds : List TokenKind}

/-- The dash of an item of the innermost block sequence, or of one that is not indented. -/
theorem yields_dash (hblank : atBlankOrEnd rest = true) (h : Yields rest (column + 1) (column :: indents) true kinds) :
    Yields ('-' :: rest) column (column :: indents) true (.blockEntry :: kinds) := by
  rintro hwritten mark tokens rfl
  refine Ends.single (by simp) hwritten (by simp) ?_ h
  rw [fetch, atDocumentMarker_mark hblank]
  simp [hblank, blockEntry, indentTo, isDeeper]
  rfl

/-- The mark of a key of the innermost block mapping. -/
theorem yields_question (hblank : atBlankOrEnd rest = true) (h : Yields rest (column + 1) (column :: indents) true kinds) :
    Yields ('?' :: rest) column (column :: indents) true (.key :: kinds) := by
  rintro hwritten mark tokens rfl
  refine Ends.single (by simp) hwritten (by simp) ?_ h
  rw [fetch, atDocumentMarker_mark hblank]
  simp [hblank, explicitKey, indentTo, isDeeper]
  rfl

/-- The colon of a value on a line of its own. -/
theorem yields_colon (hblank : atBlankOrEnd rest = true) (h : Yields rest (column + 1) (column :: indents) true kinds) :
    Yields (':' :: rest) column (column :: indents) true (.value :: kinds) := by
  rintro hwritten mark tokens rfl
  refine Ends.single (by simp) hwritten (by simp) ?_ h
  rw [fetch, atDocumentMarker_mark hblank]
  simp [hblank, value, indentTo, isDeeper]
  rfl

/-! ## The starts of collections -/

/-- From two states that take the same token the lexer goes on alike. -/
theorem Ends.of_fetch (hs : s.seek = .ok s) (ht : t.seek = .ok t) (hsrest : s.rest = c :: rest)
    (htrest : t.rest = c :: rest) (hfetch : s.fetch c rest = t.fetch c rest) (h : Ends t kinds) : Ends s kinds := by
  -- the second state is at a token, so its run does not stop here
  cases h with
  | atEnd hseek hrest =>
    cases ht.symm.trans hseek
    rw [htrest] at hrest
    cases hrest
  | token hseek hrest htaken hlength h =>
    cases ht.symm.trans hseek
    rw [htrest] at hrest
    cases hrest
    rw [← hfetch] at htaken
    exact .token hs hsrest htaken (by rwa [hsrest, ← htrest]) h

/-- A dash that is deeper than all block collections starts a sequence. -/
theorem yields_blockSequence (hblank : atBlankOrEnd rest = true) (hdeep : ∀ d ∈ indents.head?, d < column)
    (h : Yields ('-' :: rest) column (column :: indents) true kinds) :
    Yields ('-' :: rest) column indents true (.blockSequenceStart :: kinds) := by
  rintro hwritten mark tokens rfl
  have hends := h hwritten mark (⟨.blockSequenceStart, mark⟩ :: tokens) rfl
  rw [kindsOf_cons, List.append_assoc] at hends
  refine Ends.of_fetch (seek_self _ _ _ _ _ (by simp) hwritten (fun d hd => Nat.le_of_lt (hdeep d hd)) (by simp))
    (seek_self _ _ _ _ _ (by simp) hwritten (by simp) (by simp)) rfl rfl ?_ hends
  have hdeeper : isDeeper ⟨'-' :: rest, mark, 0, indents, true, [], tokens⟩ mark.column = true := by
    simpa [isDeeper, Option.all_eq_true] using hdeep
  rw [fetch, fetch, atDocumentMarker_mark hblank]
  simp [hblank, blockEntry, indentTo, hdeeper]
  simp [isDeeper, emit]

/-- The mark of a key that is deeper than all block collections starts a mapping. -/
theorem yields_blockMapping (hblank : atBlankOrEnd rest = true) (hdeep : ∀ d ∈ indents.head?, d < column)
    (h : Yields ('?' :: rest) column (column :: indents) true kinds) :
    Yields ('?' :: rest) column indents true (.blockMappingStart :: kinds) := by
  rintro hwritten mark tokens rfl
  have hends := h hwritten mark (⟨.blockMappingStart, mark⟩ :: tokens) rfl
  rw [kindsOf_cons, List.append_assoc] at hends
  refine Ends.of_fetch (seek_self _ _ _ _ _ (by simp) hwritten (fun d hd => Nat.le_of_lt (hdeep d hd)) (by simp))
    (seek_self _ _ _ _ _ (by simp) hwritten (by simp) (by simp)) rfl rfl ?_ hends
  have hdeeper : isDeeper ⟨'?' :: rest, mark, 0, indents, true, [], tokens⟩ mark.column = true := by
    simpa [isDeeper, Option.all_eq_true] using hdeep
  rw [fetch, fetch, atDocumentMarker_mark hblank]
  simp [hblank, explicitKey, indentTo, hdeeper]
  simp [isDeeper, emit]

end LexState

end ResolverWiring.Yaml
