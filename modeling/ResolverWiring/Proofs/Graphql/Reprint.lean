import ResolverWiring.Proofs.Graphql.ParserOutput
import ResolverWiring.Proofs.Graphql.RoundTrip.Document

/-!
# `Proofs.Graphql.Reprint` — which documents are printed again as they are printed

A printed document that is parsed and printed again has the same text if and only if it is separable
(`Document.parse_print_same_iff`).

A document that is not separable may be parsed all the same, but then a definition has taken the selection set
behind it for its braces. Tokens stand at the same places in equal texts (`Layout.render_split`), and that definition
leaves a space where the selection set had a line break in front of it (`Swallows.print_ne`).
-/

namespace ResolverWiring.Graphql

open Layout

variable {allowed : StringLiteral → Prop}

/-! ## Documents that are not separable -/

/-- The brace that opens a block. -/
abbrev brace : Piece := .token (.punctuator .braceOpen)

theorem intercalate_concat {α : Type} (separator : List α) {parts : List (List α)} (hne : parts ≠ [])
    (part : List α) :
    separator.intercalate (parts ++ [part]) = separator.intercalate parts ++ (separator ++ part) := by
  induction parts with
  | nil => exact absurd rfl hne
  | cons first others ih =>
    cases others with
    | nil =>
      rw [List.singleton_append, List.intercalate_cons_cons, List.intercalate_singleton,
        List.intercalate_singleton, List.append_assoc]
    | cons second others =>
      rw [List.cons_append, List.cons_append, List.intercalate_cons_cons, ← List.cons_append,
        ih (List.cons_ne_nil second others), List.intercalate_cons_cons]
      simp only [List.append_assoc]

/-- A part that is not empty, behind parts of which one is not empty, is separated from them. -/
theorem join_concat (separator : Layout) {parts : List Layout} {p part : Layout} (hmem : p ∈ parts)
    (hp : p ≠ []) (hpart : part ≠ []) :
    join separator (parts ++ [part]) = join separator (parts ++ [[]]) ++ (separator ++ part) := by
  have hne : parts.filter (!·.isEmpty) ≠ [] :=
    List.ne_nil_of_mem (List.mem_filter.mpr ⟨hmem, by simpa using hp⟩)
  have hlast : [part].filter (!·.isEmpty) = [part] := by simpa using hpart
  have hnone : ([[]] : List Layout).filter (!·.isEmpty) = [] := rfl
  rw [join, join, List.filter_append, List.filter_append, hlast, hnone, List.append_nil]
  exact intercalate_concat separator hne part

theorem block_eq_cons {parts : List Layout} (h : block parts ≠ []) : ∃ body, block parts = brace :: body := by
  unfold Layout.block onLines wrap at h ⊢
  split
  · rename_i hnone
    exact absurd (if_pos hnone) h
  · exact ⟨_, rfl⟩

/-- What stands in braces behind the header of a definition comes after a space. -/
theorem spaced_block {α : Type} {f : α → Layout} (hf : ∀ a, (f a).tokens ≠ []) (keyword : String)
    (parts : List Layout) {items : List α} (hne : items ≠ []) :
    ∃ body, spaced (word keyword :: parts ++ [block (items.map f)])
      = spaced (word keyword :: parts ++ [block (([] : List α).map f)]) ++ .space :: brace :: body := by
  obtain ⟨a, items, rfl⟩ := List.exists_cons_of_ne_nil hne
  have hblock : block ((a :: items).map f) ≠ [] := by
    apply ne_nil_of_tokens
    rw [tokens_blockOf hf]
    exact List.cons_ne_nil _ _
  obtain ⟨body, hbody⟩ := block_eq_cons hblock
  refine ⟨body, (join_concat [.space] List.mem_cons_self (List.cons_ne_nil _ _) hblock).trans ?_⟩
  rw [hbody]
  rfl

theorem TypeDecl.layout_braces {decl : TypeDecl} (hlacks : decl.body.emptied.lacksBraces = true)
    (hbraces : decl.body.lacksBraces = false) :
    ∃ body, decl.layout
      = TypeDecl.layout { decl with body := decl.body.emptied } ++ .space :: brace :: body := by
  obtain ⟨name, directives, body⟩ := decl
  cases body with
  | scalar => cases hlacks
  | union members => cases hlacks
  | object interfaces fields =>
    exact spaced_block FieldDef.tokens_ne_nil "type"
      [word name, interfacesLayout interfaces, directivesLayout directives]
      (List.isEmpty_eq_false_iff.mp hbraces)
  | interface interfaces fields =>
    exact spaced_block FieldDef.tokens_ne_nil "interface"
      [word name, interfacesLayout interfaces, directivesLayout directives]
      (List.isEmpty_eq_false_iff.mp hbraces)
  | enum values =>
    exact spaced_block EnumValueDef.tokens_ne_nil "enum" [word name, directivesLayout directives]
      (List.isEmpty_eq_false_iff.mp hbraces)
  | input fields =>
    exact spaced_block InputValueDef.tokens_ne_nil "input" [word name, directivesLayout directives]
      (List.isEmpty_eq_false_iff.mp hbraces)

theorem Definition.layout_braces {d : Definition} (hlacks : d.emptied.lacksBraces = true)
    (hbraces : d.lacksBraces = false) :
    ∃ body, d.layout = d.emptied.layout ++ .space :: brace :: body := by
  cases d with
  | type description decl =>
    obtain ⟨body, h⟩ := TypeDecl.layout_braces hlacks hbraces
    exact ⟨body, by rw [emptied, layout, layout, h, ← List.append_assoc]⟩
  | extendType decl =>
    obtain ⟨body, h⟩ := TypeDecl.layout_braces hlacks hbraces
    exact ⟨body, by rw [emptied, layout, layout, h, ← List.append_assoc]⟩
  | extendSchema directives roots =>
    obtain ⟨body, h⟩ := spaced_block RootType.tokens_ne_nil "schema"
      [directivesLayout directives] (List.isEmpty_eq_false_iff.mp hbraces)
    have h : schemaLayout directives roots = schemaLayout directives [] ++ .space :: brace :: body := h
    exact ⟨body, by rw [emptied, layout, layout, h, ← List.append_assoc]⟩
  | _ => cases hlacks

theorem Definition.WellFormed.layout_ne_nil {d : Definition} (h : d.WellFormed allowed) :
    d.layout ≠ [] :=
  ne_nil_of_tokens (Parser.Reads.startsWith_definition h).ne_nil

/-- The layout of a document from its second definition on stands behind a blank line. -/
theorem Document.layout_cons {d next : Definition} (hd : d.layout ≠ []) (hnext : next.layout ≠ [])
    (others : List Definition) : (Document.mk (d :: next :: others)).layout
      = d.layout ++ .line 0 :: .line 0 :: (Document.mk (next :: others)).layout := by
  have hfilter : ∀ (d : Definition) (others : List Definition), d.layout ≠ [] →
      ((d :: others).map Definition.layout).filter (!·.isEmpty)
        = d.layout :: (others.map Definition.layout).filter (!·.isEmpty) := by
    intro d others hd
    rw [List.map_cons, List.filter_cons_of_pos (by simpa using hd)]
  rw [Document.layout, Document.layout, join, join, hfilter d _ hd, hfilter next _ hnext,
    List.intercalate_cons_cons, List.append_assoc]
  rfl

/-- The layout of a document starts with that of its first definition. -/
theorem Document.layout_starts {d : Definition} {others : List Definition}
    (h : ∀ d' ∈ d :: others, d'.layout ≠ []) :
    ∃ after, (Document.mk (d :: others)).layout = d.layout ++ after := by
  obtain ⟨hd, hothers⟩ := List.forall_mem_cons.mp h
  cases others with
  | nil =>
    refine ⟨[], ?_⟩
    rw [List.append_nil, Document.layout, List.map_singleton, join, List.filter_cons_of_pos (by simpa using hd),
      List.filter_nil, List.intercalate_singleton]
  | cons next others => exact ⟨_, layout_cons hd (hothers next List.mem_cons_self) others⟩

/-- The layout of a document in front of one of its definitions. -/
theorem Document.layout_append {front others : List Definition} (hne : others ≠ [])
    (h : ∀ d ∈ front ++ others, d.layout ≠ []) :
    ∃ before, before.tokens = Parser.Reads.definitionsTokens front ∧
      (Document.mk (front ++ others)).layout = before ++ (Document.mk others).layout := by
  induction front with
  | nil => exact ⟨[], rfl, rfl⟩
  | cons d front ih =>
    have hd : d.layout ≠ [] := h d List.mem_cons_self
    have hbehind : ∀ d ∈ front ++ others, d.layout ≠ [] := (List.forall_mem_cons.mp h).2
    obtain ⟨before, htokens, hlayout⟩ := ih hbehind
    obtain ⟨next, behind, hnext⟩ := List.exists_cons_of_ne_nil (List.append_ne_nil_of_right_ne_nil front hne)
    refine ⟨d.layout ++ .line 0 :: .line 0 :: before, ?_, ?_⟩
    · rw [tokens_append, Parser.Reads.definitionsTokens, List.flatMap_cons]
      exact congrArg _ htokens
    · rw [List.cons_append, hnext, layout_cons hd (hbehind next (hnext ▸ List.mem_cons_self)), ← hnext, hlayout,
        List.append_assoc]
      rfl

/-- Where a definition has taken the one behind it. -/
theorem Swallows.split {definitions result : List Definition} (h : Swallows definitions result) :
    ∃ front d next others d' others', definitions = front ++ d :: next :: others ∧
      result = front ++ d' :: others' ∧ next.isShorthand = true ∧ d'.emptied = d ∧
      d.lacksBraces = true ∧ d'.lacksBraces = false := by
  induction h with
  | @here d d' next others others' hnext hlacks hsame hbraces =>
    exact ⟨[], d, next, others, d', others', rfl, rfl, hnext, hsame, hlacks, hbraces⟩
  | there d _ ih =>
    obtain ⟨front, e, next, others, e', others', rfl, rfl, h⟩ := ih
    exact ⟨d :: front, e, next, others, e', others', rfl, rfl, h⟩

theorem Definition.layout_shorthand {d : Definition} (hshort : d.isShorthand = true)
    (h : d.WellFormed allowed) : ∃ body, d.layout = brace :: body := by
  cases d with
  | operation o =>
    have hne := h.layout_ne_nil
    obtain ⟨kind, name?, declared, directives, selections⟩ := o
    simp only [isShorthand, Operation.isShorthand, Bool.and_eq_true, decide_eq_true_eq,
      Option.isNone_iff_eq_none, List.isEmpty_iff] at hshort
    obtain ⟨⟨⟨rfl, rfl⟩, rfl⟩, rfl⟩ := hshort
    exact block_eq_cons hne
  | _ => cases hshort

open Parser.Reads (definitionsTokens)

theorem definitionsTokens_concat (front : List Definition) (d : Definition) :
    definitionsTokens (front ++ [d]) = definitionsTokens front ++ d.layout.tokens := by
  rw [definitionsTokens, List.flatMap_append, List.flatMap_singleton]

theorem getLast?_render_concat (layout : Layout) {p : Piece} {c : Char} (h : p.render = [c]) :
    (render (layout ++ [p])).getLast? = some c := by
  rw [render_append, show render [p] = [c] from (List.flatMap_singleton ..).trans h, List.getLast?_concat]

/-- In front of a selection set stands a line break. -/
theorem Document.layout_selectionSet {front others : List Definition} {d next : Definition}
    (h : ∀ d' ∈ front ++ d :: next :: others, d'.WellFormed allowed) (hshort : next.isShorthand = true) :
    ∃ before after, before.tokens = definitionsTokens (front ++ [d]) ∧ before.render.getLast? = some '\n' ∧
      (Document.mk (front ++ d :: next :: others)).layout = before ++ brace :: after := by
  have hlayouts : ∀ d' ∈ front ++ d :: next :: others, d'.layout ≠ [] := fun d' hmem =>
    (h d' hmem).layout_ne_nil
  obtain ⟨before, htokens, hlayout⟩ := Document.layout_append (List.cons_ne_nil _ _) hlayouts
  obtain ⟨hd, hbehind⟩ := List.forall_mem_cons.mp (List.forall_mem_append.mp hlayouts).2
  obtain ⟨after, hafter⟩ := Document.layout_starts hbehind
  have hnext : next.WellFormed allowed := h next (by simp)
  obtain ⟨body, hbody⟩ := Definition.layout_shorthand hshort hnext
  refine ⟨before ++ d.layout ++ [.line 0] ++ [.line 0], body ++ after, ?_, getLast?_render_concat _ rfl, ?_⟩
  · rw [definitionsTokens_concat, ← htokens, ← tokens_append, List.append_assoc, tokens_append]
    exact List.append_nil _
  · rw [hlayout, layout_cons hd (hbehind next List.mem_cons_self), hafter, hbody]
    simp only [List.append_assoc, List.cons_append, List.nil_append]

/-- In front of the braces of a definition stands a space. -/
theorem Document.layout_braces {front others : List Definition} {d : Definition}
    (h : ∀ d' ∈ front ++ d :: others, d'.WellFormed allowed) (hlacks : d.emptied.lacksBraces = true)
    (hbraces : d.lacksBraces = false) :
    ∃ before after, before.tokens = definitionsTokens (front ++ [d.emptied]) ∧
      before.render.getLast? = some ' ' ∧ (Document.mk (front ++ d :: others)).layout = before ++ brace :: after := by
  have hlayouts : ∀ d' ∈ front ++ d :: others, d'.layout ≠ [] := fun d' hmem => (h d' hmem).layout_ne_nil
  obtain ⟨before, htokens, hlayout⟩ := Document.layout_append (List.cons_ne_nil _ _) hlayouts
  obtain ⟨after, hafter⟩ := Document.layout_starts (List.forall_mem_append.mp hlayouts).2
  obtain ⟨body, hbody⟩ := Definition.layout_braces hlacks hbraces
  refine ⟨before ++ d.emptied.layout ++ [.space], body ++ after, ?_, getLast?_render_concat _ rfl, ?_⟩
  · rw [definitionsTokens_concat, ← htokens, ← tokens_append, tokens_append]
    exact List.append_nil _
  · rw [hlayout, hafter, hbody]
    simp only [List.append_assoc, List.cons_append, List.nil_append]

/-- **A document that is parsed otherwise than it is printed is printed otherwise.** A space stands in one text
where a line break stands in the other. -/
theorem Swallows.print_ne {d d' : Document} (h : Swallows d.definitions d'.definitions)
    (hd : d.WellFormed StringLiteral.IsRead) (hd' : d'.WellFormed StringLiteral.IsRead) :
    d.print ≠ d'.print := by
  intro heq
  replace heq : d.layout.render = d'.layout.render := String.ofList_injective heq
  have hlegible := d.legible
  have hlegible' := d'.legible
  have hspelled := hd.spelled
  have hspelled' := hd'.spelled
  obtain ⟨definitions⟩ := d
  obtain ⟨result⟩ := d'
  obtain ⟨front, _, next, others, taker, others', rfl, rfl, hshort, rfl, hlacks, hbraces⟩ := h.split
  obtain ⟨before, after, htokens, hline, hlayout⟩ := Document.layout_selectionSet hd.definitions hshort
  obtain ⟨before', after', htokens', hspace, hlayout'⟩ :=
    Document.layout_braces hd'.definitions hlacks hbraces
  have hlength : before.tokens.length = before'.tokens.length := by rw [htokens, htokens']
  rw [hlayout] at hlegible hspelled heq
  rw [hlayout'] at hlegible' hspelled' heq
  obtain ⟨hbefore, -, -⟩ := render_split hlegible hlegible' hspelled hspelled' rfl rfl hlength heq
  rw [hbefore, hspace] at hline
  cases hline

/-! ## Printing, parsing and printing again -/

/-- **Which texts stay as they are.** A printed document is parsed as a document with the same print exactly if no
definition without braces stands in front of a bare selection set. -/
theorem Document.parse_print_same_iff {d : Document} (h : d.WellFormed StringLiteral.IsRead) :
    (∃ d', Document.parse d.print = .ok d' ∧ d'.print = d.print) ↔ d.Separable := by
  constructor
  · rintro ⟨d', hparse, hprint⟩
    have hread' : d'.WellFormed StringLiteral.IsRead :=
      Document.parse_wellFormed hparse fun _ _ hliteral => hliteral
    by_contra hseparable
    exact (Document.parse_print_swallows h hseparable hparse).print_ne h hread' hprint.symm
  · intro hseparable
    exact ⟨d, Document.parse_print_of_separable h hseparable, rfl⟩

end ResolverWiring.Graphql
