import Mathlib.Data.List.Chain
import ResolverWiring.Proofs.Graphql.ReadBack

/-!
# `Proofs.Graphql.Layout` — a layout is read back as its tokens

A layout looks like the characters of its pieces in a row, so two tokens must not run into each other. Whether
they can is decided by the two pieces that meet (`Piece.Fits`), and a layout in which all neighbours fit is
called legible. A legible layout of well-formed tokens is read back as these tokens (`tokens_render`). Where a
token stands can be told from the text alone: layouts with the same text have the tokens with the same number at
the same place (`render_split`).

Legible layouts are built from legible parts: a part that ends freely, or one that starts apart, can be put
next to any other (`Legible.append`, and its corollaries for joined, wrapped and nested layouts).
-/

namespace ResolverWiring.Graphql

open Lexer

/-! ## Neighbours -/

namespace Piece

/-- Whether a piece ends in such a way that nothing behind it can be taken for a part of it. -/
def isFree : Piece → Bool
  | token (.punctuator _) => true
  | token _ => false
  | _ => true

/-- Whether a piece starts in such a way that it cannot be taken for a part of what is in front. -/
def isApart : Piece → Bool
  | token (.punctuator mark) => mark ≠ .spread
  | token _ => false
  | block _ _ => false
  | _ => true

/-- Whether the second piece may stand right behind the first. -/
def Fits (p q : Piece) : Prop := p.isFree = true ∨ q.isApart = true

theorem isFree_nest (p : Piece) : p.nest.isFree = p.isFree := by
  cases p <;> rfl

theorem isApart_nest (p : Piece) : p.nest.isApart = p.isApart := by
  cases p <;> rfl

theorem token?_nest (p : Piece) : p.nest.token? = p.token? := by
  cases p <;> rfl

end Piece

open Piece

/-! ## Reading a layout -/

theorem isIgnored_indentation (depth : Nat) : ∀ c ∈ indentation depth, isIgnored c = true := by
  intro c hc
  rw [List.eq_of_mem_replicate hc]
  rfl

/-- A piece without a token is skipped. -/
theorem skipIgnored_render {p : Piece} (h : p.token? = none) (rest : List Char) :
    skipIgnored false (p.render ++ rest) = skipIgnored false rest := by
  cases p with
  | token t => cases h
  | block depth text => cases h
  | space => exact skipIgnored_separators (List.forall_mem_singleton.mpr rfl) rest
  | comma =>
    exact skipIgnored_separators
      (List.forall_mem_cons.mpr ⟨rfl, List.forall_mem_singleton.mpr rfl⟩) rest
  | line depth =>
    exact skipIgnored_separators (List.forall_mem_cons.mpr ⟨rfl, isIgnored_indentation depth⟩) rest

/-- A piece with a token is read as this token. -/
theorem next_render {p : Piece} {t : Token} (h : p.token? = some t)
    (hwf : t.WellFormed StringLiteral.IsRead) {rest : List Char}
    (hrest : p.isFree = true ∨ StandsApart rest) : next (p.render ++ rest) = .done t rest := by
  cases p with
  | token t' =>
    cases h
    rcases hrest with hfree | hrest
    · cases t with
      | punctuator mark => exact next_mark mark rest
      | _ => cases hfree
    · exact next_write hwf hrest
  | block depth text =>
    cases h
    exact next_block hwf depth rest
  | space => cases h
  | comma => cases h
  | line depth => cases h

theorem standsApart_render {p : Piece} (h : p.isApart = true) (rest : List Char) :
    StandsApart (p.render ++ rest) := by
  intro c hc
  cases p with
  | token t =>
    cases t with
    | punctuator mark =>
      cases mark <;> first | (cases hc; rfl) | cases h
    | _ => cases h
  | block depth text => cases h
  | space =>
    cases hc
    rfl
  | comma =>
    cases hc
    rfl
  | line depth =>
    cases hc
    rfl

namespace Layout

/-- Whether no two tokens of a layout run into each other. -/
def Legible (layout : Layout) : Prop := layout.IsChain Fits

/-- The first piece of a legible layout, if it has a token, is read as this token. -/
theorem next_legible {p : Piece} {layout : Layout} {t : Token} (h : Legible (p :: layout))
    (ht : p.token? = some t) (hwf : t.WellFormed StringLiteral.IsRead) :
    next (p.render ++ render layout) = .done t (render layout) := by
  refine next_render ht hwf ?_
  -- only the piece right behind it can run into the token
  cases layout with
  | nil => exact .inr fun c hc => by cases hc
  | cons q layout =>
    exact ((List.isChain_cons.mp h).1 q rfl).imp id fun hq => standsApart_render hq _

/-- **Layouts are read back.** The tokens of the text that a legible layout renders to are those of the layout. -/
theorem tokens_render {layout : Layout} (h : layout.Legible)
    (hwf : ∀ t ∈ layout.tokens, t.WellFormed StringLiteral.IsRead) :
    Graphql.tokens layout.render = layout.tokens ++ [.endOfInput] := by
  induction layout with
  | nil => exact tokens_nil
  | cons p layout ih =>
    obtain ⟨hfits, hlayout⟩ := List.isChain_cons.mp h
    show Graphql.tokens (p.render ++ render layout) = _
    cases ht : p.token? with
    | none =>
      -- a piece between tokens: it is skipped
      have htokens : tokens (p :: layout) = tokens layout := List.filterMap_cons_none ht
      rw [htokens] at hwf ⊢
      rw [tokens_congr (skipIgnored_render ht _), ih hlayout hwf]
    | some t =>
      have htokens : tokens (p :: layout) = t :: tokens layout := List.filterMap_cons_some ht
      rw [htokens] at hwf ⊢
      obtain ⟨hwf, hothers⟩ := List.forall_mem_cons.mp hwf
      rw [tokens_of_next (next_legible h ht hwf) hwf.ne_endOfInput, ih hlayout hothers, List.cons_append]

/-! ## Building legible layouts -/

/-- Whether every other layout may follow. -/
def EndsFree (layout : Layout) : Prop := ∀ p ∈ layout.getLast?, p.isFree = true

/-- Whether every other layout may precede. -/
def StartsApart (layout : Layout) : Prop := ∀ p ∈ layout.head?, p.isApart = true

variable {before body after : Layout} {parts : List Layout}

theorem Legible.append (hbefore : before.Legible) (hafter : after.Legible)
    (h : before.EndsFree ∨ after.StartsApart) : (before ++ after).Legible := by
  refine List.IsChain.append hbefore hafter fun p hp q hq => ?_
  rcases h with h | h
  · exact .inl (h p hp)
  · exact .inr (h q hq)

theorem StartsApart.append (hbefore : before.StartsApart) (hafter : before = [] → after.StartsApart) :
    (before ++ after).StartsApart := by
  cases before with
  | nil => exact hafter rfl
  | cons => exact hbefore

theorem Legible.nest (h : body.Legible) : body.nest.Legible := by
  refine List.isChain_map_of_isChain Piece.nest (fun p q hfits => ?_) h
  rwa [Fits, isFree_nest, isApart_nest]

theorem endsFree_concat {p : Piece} (hp : p.isFree = true) : (before ++ [p]).EndsFree := by
  intro q hq
  rw [List.getLast?_concat] at hq
  cases hq
  exact hp

theorem endsFree_single {p : Piece} (hp : p.isFree = true) : EndsFree [p] := by
  intro q hq
  cases hq
  exact hp

theorem endsFree_cons {p q : Piece} (h : EndsFree (q :: body)) : EndsFree (p :: q :: body) := by
  intro r hr
  exact h r (by rwa [List.getLast?_cons_cons] at hr)

theorem startsApart_cons {p : Piece} (hp : p.isApart = true) : StartsApart (p :: body) := by
  intro q hq
  cases hq
  exact hp

theorem startsApart_nil : StartsApart [] := fun p hp => by cases hp

theorem endsFree_nil : EndsFree [] := fun p hp => by cases hp

theorem legible_nil : Legible [] := List.isChain_nil

theorem legible_single (p : Piece) : Legible [p] := List.isChain_singleton p

theorem Legible.cons {p : Piece} (h : body.Legible) (hp : p.isFree = true ∨ body.StartsApart) :
    Legible (p :: body) :=
  List.isChain_cons.mpr ⟨fun q hq => hp.imp id fun hbody => hbody q hq, h⟩

theorem forall_legible_cons (hbody : body.Legible) (h : ∀ part ∈ parts, part.Legible) :
    ∀ part ∈ body :: parts, part.Legible :=
  List.forall_mem_cons.mpr ⟨hbody, h⟩

theorem forall_legible_single (hbody : body.Legible) : ∀ part ∈ [body], part.Legible :=
  List.forall_mem_singleton.mpr hbody

theorem Legible.join (hbefore : before.Legible) (hne : before ≠ []) (hends : before.EndsFree)
    (hstarts : before.StartsApart) (h : ∀ part ∈ parts, part.Legible) :
    (join before parts).Legible := by
  have hfilter : ∀ part ∈ parts.filter (!·.isEmpty), part.Legible := fun part hpart =>
    h part (List.mem_filter.mp hpart).1
  unfold Layout.join
  generalize parts.filter (!·.isEmpty) = items at hfilter
  induction items with
  | nil => exact legible_nil
  | cons first others ih =>
    obtain ⟨hfirst, hothers⟩ := List.forall_mem_cons.mp hfilter
    cases others with
    | nil =>
      rw [List.intercalate_singleton]
      exact hfirst
    | cons second others =>
      rw [List.intercalate_cons_cons, List.append_assoc]
      exact hfirst.append (hbefore.append (ih hothers) (.inl hends))
        (.inr (hstarts.append fun hnil => absurd hnil hne))

theorem Legible.wrap (hbefore : before.Legible) (hbody : body.Legible) (hafter : after.Legible)
    (hends : before.EndsFree) (hstarts : after.StartsApart) : (wrap before body after).Legible := by
  unfold Layout.wrap
  split
  · exact legible_nil
  · exact (hbefore.append hbody (.inl hends)).append hafter (.inr hstarts)

theorem StartsApart.wrap (h : before.StartsApart) (hne : before ≠ []) :
    (wrap before body after).StartsApart := by
  unfold Layout.wrap
  split
  · exact startsApart_nil
  · rw [List.append_assoc]
    exact h.append fun hnil => absurd hnil hne

theorem Legible.spaced (h : ∀ part ∈ parts, part.Legible) : (spaced parts).Legible :=
  (legible_single .space).join (List.cons_ne_nil _ _) (endsFree_single rfl)
    (startsApart_cons rfl) h

theorem Legible.onLines (opening closing : Punctuator) (h : ∀ part ∈ parts, part.Legible) :
    (onLines opening closing parts).Legible := by
  have hjoin : (Layout.join newline parts).Legible :=
    (legible_single _).join (List.cons_ne_nil _ _) (endsFree_single rfl)
      (startsApart_cons rfl) h
  exact Legible.wrap ((legible_single _).cons (.inl rfl)) hjoin.nest ((legible_single _).cons (.inl rfl))
    (endsFree_concat rfl) (startsApart_cons rfl)

theorem Legible.block (h : ∀ part ∈ parts, part.Legible) : (block parts).Legible :=
  Legible.onLines .braceOpen .braceClose h

theorem Legible.parenthesized (h : ∀ part ∈ parts, part.Legible) : (parenthesized parts).Legible :=
  Legible.wrap (legible_single _)
    ((legible_single .comma).join (List.cons_ne_nil _ _) (endsFree_single rfl)
      (startsApart_cons rfl) h)
    (legible_single _) (endsFree_single rfl) (startsApart_cons rfl)

theorem startsApart_onLines {opening : Punctuator} (h : opening ≠ .spread) (closing : Punctuator)
    (parts : List Layout) : (onLines opening closing parts).StartsApart :=
  StartsApart.wrap (startsApart_cons (by simpa [isApart] using h)) (List.cons_ne_nil _ _)

theorem startsApart_parenthesized (parts : List Layout) : (parenthesized parts).StartsApart :=
  StartsApart.wrap (startsApart_cons rfl) (List.cons_ne_nil _ _)

/-! ## The text and the tokens of composed layouts -/

theorem render_append : render (before ++ after) = render before ++ render after :=
  List.flatMap_append

theorem tokens_append : tokens (before ++ after) = tokens before ++ tokens after :=
  List.filterMap_append

theorem tokens_nest (layout : Layout) : layout.nest.tokens = layout.tokens := by
  rw [tokens, nest, List.filterMap_map]
  exact List.filterMap_congr fun p _ => token?_nest p

theorem tokens_ofString (literal : StringLiteral) :
    tokens [.ofString literal] = [.string literal] := by
  obtain ⟨text, block⟩ := literal
  cases block <;> rfl

theorem tokens_join (h : before.tokens = []) (parts : List Layout) :
    (join before parts).tokens = parts.flatMap tokens := by
  induction parts with
  | nil => rfl
  | cons first others ih =>
    cases first with
    | nil => exact ih
    | cons p first =>
      have hfilter : (((p :: first) :: others).filter (!·.isEmpty))
          = (p :: first) :: others.filter (!·.isEmpty) := rfl
      rw [Layout.join, hfilter, List.flatMap_cons, ← ih, Layout.join]
      cases others.filter (!·.isEmpty) with
      | nil =>
        rw [List.intercalate_singleton, List.intercalate_nil]
        exact (List.append_nil _).symm
      | cons second others =>
        rw [List.intercalate_cons_cons, tokens_append, tokens_append, h, List.append_nil]

theorem tokens_spaced (parts : List Layout) : (spaced parts).tokens = parts.flatMap tokens :=
  tokens_join rfl parts

theorem tokens_wrap (h : body ≠ []) :
    (wrap before body after).tokens = before.tokens ++ body.tokens ++ after.tokens := by
  rw [Layout.wrap, if_neg (by simpa using h), tokens_append, tokens_append]

/-- Lists of tokens between two marks, and nothing if there are none. -/
def enclosed (opening closing : Punctuator) (items : List (List Token)) : List Token :=
  if items.isEmpty then []
  else .punctuator opening :: (items.flatten ++ [.punctuator closing])

theorem ne_nil_of_tokens (h : body.tokens ≠ []) : body ≠ [] := by
  rintro rfl
  exact h rfl

theorem join_ne_nil (hsep : before.tokens = []) {part : Layout} (hmem : part ∈ parts)
    (h : part.tokens ≠ []) : join before parts ≠ [] := by
  apply ne_nil_of_tokens
  rw [tokens_join hsep]
  obtain ⟨t, ht⟩ := List.exists_mem_of_ne_nil _ h
  exact List.ne_nil_of_mem (List.mem_flatMap.mpr ⟨part, hmem, ht⟩)

theorem tokens_onLines (opening closing : Punctuator) (h : ∀ part ∈ parts, part.tokens ≠ []) :
    (onLines opening closing parts).tokens = enclosed opening closing (parts.map tokens) := by
  cases parts with
  | nil => rfl
  | cons part parts =>
    have hne : (join newline (part :: parts)).nest ≠ [] := by
      intro hnil
      exact join_ne_nil rfl List.mem_cons_self (h part List.mem_cons_self) (List.map_eq_nil_iff.mp hnil)
    rw [onLines, tokens_wrap hne, tokens_nest, tokens_join rfl, List.flatMap_def]
    rfl

theorem tokens_parenthesized (h : ∀ part ∈ parts, part.tokens ≠ []) :
    (parenthesized parts).tokens = enclosed .parenOpen .parenClose (parts.map tokens) := by
  cases parts with
  | nil => rfl
  | cons part parts =>
    have hne := join_ne_nil (show tokens [.comma] = [] from rfl) (List.mem_cons_self (l := parts))
      (h part List.mem_cons_self)
    rw [parenthesized, tokens_wrap hne, tokens_join rfl, List.flatMap_def]
    rfl

theorem tokens_block (h : ∀ part ∈ parts, part.tokens ≠ []) :
    (block parts).tokens = enclosed .braceOpen .braceClose (parts.map tokens) :=
  tokens_onLines .braceOpen .braceClose h

/-! ## Where the tokens of a layout stand -/

/-- The first lexeme of a layout that starts with a token. -/
theorem lex_render_cons {p : Piece} {t : Token} (h : Legible (p :: body)) (ht : p.token? = some t)
    (hwf : t.WellFormed StringLiteral.IsRead) :
    lex (render (p :: body)) = ⟨t, render (p :: body)⟩ :: lex body.render :=
  lex_of_next (next_legible h ht hwf) hwf.ne_endOfInput

/-- The lexemes of a layout in two parts: one for each token of the first part, then those of the second. -/
theorem lex_render_append (h : Legible (before ++ after))
    (hwf : ∀ t ∈ before.tokens, t.WellFormed StringLiteral.IsRead) :
    ∃ front, front.length = before.tokens.length ∧
      lex (render (before ++ after)) = front ++ lex after.render := by
  induction before with
  | nil => exact ⟨[], rfl, rfl⟩
  | cons p before ih =>
    -- a piece without a token leaves no trace: the lexer skips it
    have hbehind : Legible (before ++ after) := h.tail
    cases ht : p.token? with
    | none =>
      have htokens : tokens (p :: before) = tokens before := List.filterMap_cons_none ht
      rw [htokens] at hwf ⊢
      obtain ⟨front, hlength, hlex⟩ := ih hbehind hwf
      exact ⟨front, hlength, (lex_congr (skipIgnored_render ht _)).trans hlex⟩
    | some t =>
      have htokens : tokens (p :: before) = t :: tokens before := List.filterMap_cons_some ht
      rw [htokens] at hwf ⊢
      obtain ⟨hp, hbefore⟩ := List.forall_mem_cons.mp hwf
      obtain ⟨front, hlength, hlex⟩ := ih hbehind hbefore
      refine ⟨⟨t, render (p :: before ++ after)⟩ :: front, congrArg Nat.succ hlength, ?_⟩
      have hfirst := lex_render_cons (show Legible (p :: (before ++ after)) from h) ht hp
      rw [List.cons_append, hfirst, hlex]
      rfl

variable {before' after' : Layout} {p p' : Piece} {t t' : Token}

/-- **Layouts that look alike have their tokens at the same places.** Of two layouts with the same text, the
tokens with the same number look alike, and so does what is in front of them and behind them. -/
theorem render_split (h : Legible (before ++ p :: after)) (h' : Legible (before' ++ p' :: after'))
    (hwf : ∀ t ∈ tokens (before ++ p :: after), t.WellFormed StringLiteral.IsRead)
    (hwf' : ∀ t ∈ tokens (before' ++ p' :: after'), t.WellFormed StringLiteral.IsRead)
    (ht : p.token? = some t) (ht' : p'.token? = some t')
    (hlength : before.tokens.length = before'.tokens.length)
    (heq : render (before ++ p :: after) = render (before' ++ p' :: after')) :
    before.render = before'.render ∧ p.render = p'.render ∧ after.render = after'.render := by
  have hbehind : Legible (p :: after) := (List.isChain_append.mp h).2.1
  have hbehind' : Legible (p' :: after') := (List.isChain_append.mp h').2.1
  rw [tokens_append] at hwf hwf'
  obtain ⟨hbefore, hfrom⟩ := List.forall_mem_append.mp hwf
  obtain ⟨hbefore', hfrom'⟩ := List.forall_mem_append.mp hwf'
  have hp : t.WellFormed StringLiteral.IsRead :=
    hfrom t (List.mem_filterMap.mpr ⟨p, List.mem_cons_self, ht⟩)
  have hp' : t'.WellFormed StringLiteral.IsRead :=
    hfrom' t' (List.mem_filterMap.mpr ⟨p', List.mem_cons_self, ht'⟩)
  -- the lexeme of the token says where it stands
  have hplace : p.render ++ after.render = p'.render ++ after'.render := by
    obtain ⟨front, hfront, hlex⟩ := lex_render_append h hbefore
    obtain ⟨front', hfront', hlex'⟩ := lex_render_append h' hbefore'
    have hnumber : front.length = front'.length := by omega
    rw [heq, hlex', lex_render_cons hbehind ht hp, lex_render_cons hbehind' ht' hp'] at hlex
    have hlexemes := (List.append_inj hlex hnumber.symm).2
    exact (congrArg Lexeme.place (List.cons.inj hlexemes).1).symm
  -- and what is behind it is what is left when it has been read
  have hafter : after.render = after'.render := by
    have hnext := next_legible hbehind ht hp
    rw [hplace, next_legible hbehind' ht' hp'] at hnext
    exact (Reading.done.inj hnext).2.symm
  refine ⟨?_, ?_, hafter⟩
  · rw [render_append, render_append] at heq
    exact List.append_inj_left' heq (congrArg List.length hplace)
  · rw [hafter] at hplace
    exact List.append_cancel_right hplace

end Layout

end ResolverWiring.Graphql
