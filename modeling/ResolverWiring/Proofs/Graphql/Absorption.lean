import ResolverWiring.Proofs.Graphql.Balanced
import ResolverWiring.Proofs.Graphql.ParserInput
import ResolverWiring.Graphql.Rules.Vocabulary
import ResolverWiring.Proofs.Graphql.RoundTrip.Document

/-!
# `Proofs.Graphql.Absorption` — what any printed document is parsed as

A printed document that is separable comes back as it was. Of any other document, some definitions that
lack their braces have taken the selection set behind them for these braces. The braces of the selection set are
then all that they take: parsing goes on with the definition behind it, and the directives in the selection set
are those in the braces now (`Absorbs`, `Document.parse_print_absorbs`).

So whatever a printed document is parsed as, it uses directives of the same names and defines the same
directives.
-/

namespace ResolverWiring.Graphql

open Layout

/-! ## The braces of a definition -/

/-- The uses in the braces that a definition may lack. -/
def Definition.bracedUses : Definition → List DirectiveUse
  | .type _ decl => decl.body.uses
  | .extendType decl => decl.body.uses
  | _ => []

theorem TypeDecl.uses_emptied (decl : TypeDecl) :
    decl.uses = { decl with body := decl.body.emptied }.uses ++ decl.body.uses := by
  obtain ⟨name, directives, body⟩ := decl
  have hsort : body.emptied.sort = body.sort := by cases body <;> rfl
  have huses : body.emptied.uses = [] := by cases body <;> rfl
  rw [TypeDecl.uses, TypeDecl.uses, hsort, huses, List.append_nil]

theorem Definition.uses_emptied (d : Definition) : d.uses = d.emptied.uses ++ d.bracedUses := by
  cases d with
  | type description decl => exact decl.uses_emptied
  | extendType decl => exact decl.uses_emptied
  | _ => exact (List.append_nil _).symm

theorem TypeBody.exists_inner {body : TypeBody} (hsort : body.emptied.lacksBraces = true)
    (hbraces : body.lacksBraces = false) : ∃ inner, Balanced (useNames body.uses) inner ∧
      body.bracedTokens = .punctuator .braceOpen :: (inner ++ [.punctuator .braceClose]) := by
  have hfields : ∀ fields : List FieldDef, fields.isEmpty = false →
      ∃ inner, Balanced (useNames (fields.flatMap FieldDef.uses)) inner ∧
        blockTokens (fun f => f.layout.tokens) fields
          = .punctuator .braceOpen :: (inner ++ [.punctuator .braceClose]) := by
    intro fields hne
    rw [useNames_flatMap]
    exact Balanced.exists_inner (List.isEmpty_eq_false_iff.mp hne) fun f _ => Balanced.fieldDef f
  cases body with
  -- the two sorts of types that are never written with braces
  | scalar => cases hsort
  | union members => cases hsort
  | object interfaces fields => exact hfields fields hbraces
  | interface interfaces fields => exact hfields fields hbraces
  | enum values =>
    rw [uses, useNames_flatMap]
    exact Balanced.exists_inner (List.isEmpty_eq_false_iff.mp hbraces) fun e _ =>
      Balanced.enumValueDef e
  | input fields =>
    rw [uses, useNames_flatMap]
    exact Balanced.exists_inner (List.isEmpty_eq_false_iff.mp hbraces) fun i _ =>
      Balanced.inputValueDef .inputFieldDefinition i

theorem Definition.exists_inner {d : Definition} (hsort : d.emptied.lacksBraces = true)
    (hbraces : d.lacksBraces = false) : ∃ inner, Balanced (useNames d.bracedUses) inner ∧
      d.bracedTokens = .punctuator .braceOpen :: (inner ++ [.punctuator .braceClose]) := by
  cases d with
  | type description decl => exact TypeBody.exists_inner hsort hbraces
  | extendType decl => exact TypeBody.exists_inner hsort hbraces
  | extendSchema directives roots =>
    obtain ⟨inner, hinner, htokens⟩ := Balanced.exists_inner (List.isEmpty_eq_false_iff.mp hbraces)
      fun r _ => Balanced.rootType r
    rw [List.flatMap_eq_nil_iff.mpr fun _ _ => rfl] at hinner
    exact ⟨inner, hinner, htokens⟩
  | _ => cases hsort

/-- The selection set of a query that is written as nothing else, seen from inside of its braces. -/
theorem Operation.exists_inner {o : Operation} (hshort : o.isShorthand = true) (hne : o.selections ≠ []) :
    ∃ inner, Balanced (useNames o.uses) inner ∧
      o.layout.tokens = .punctuator .braceOpen :: (inner ++ [.punctuator .braceClose]) := by
  have huses : o.uses = selectionsUses o.selections := by
    simp only [isShorthand, Bool.and_eq_true, List.isEmpty_iff] at hshort
    obtain ⟨⟨-, hvariables⟩, hdirectives⟩ := hshort
    rw [uses, hvariables, hdirectives]
    rfl
  rw [Operation.tokens_shorthand hshort, huses, selectionsUses_eq, useNames_flatMap]
  exact Balanced.exists_inner hne fun s _ => Balanced.selection s

/-! ## A definition that takes braces behind it -/

namespace Parser

theorem bodyParser_takes {decl decl' : TypeDecl} {ts rest : List Token}
    (hlacks : decl.body.lacksBraces = true) (h : bodyParser decl ts = .ok (decl', rest)) :
    ts = decl'.body.bracedTokens ++ rest := by
  have hmade : ∀ {α : Type} {item : Parser α} {spell : α → List Token} (make : List α → TypeBody),
      Takes [] spell item → (∀ items, (make items).bracedTokens = blockTokens spell items) →
      Takes [] (fun decl' : TypeDecl => decl'.body.bracedTokens) (do
        let items ← optionalBetween .braceOpen item .braceClose
        return TypeDecl.mk decl.name decl.directives (make items)) := by
    intro α item spell make hitem hmake
    exact (Takes.optionalBetween hitem).bind fun items => Takes.pure (hmake items).symm
  obtain ⟨name, directives, body⟩ := decl
  cases body with
  | scalar => cases hlacks
  | union members => cases hlacks
  | object interfaces fields =>
    exact hmade (.object interfaces) Takes.parseFieldDef (fun _ => rfl) h
  | interface interfaces fields =>
    exact hmade (.interface interfaces) Takes.parseFieldDef (fun _ => rfl) h
  | enum values => exact hmade .enum Takes.parseEnumValueDef (fun _ => rfl) h
  | input fields => exact hmade .input Takes.parseInputValueDef (fun _ => rfl) h

theorem restParser_takes {d d' : Definition} {ts rest : List Token} (hlacks : d.lacksBraces = true)
    (h : restParser d ts = .ok (d', rest)) : ts = d'.bracedTokens ++ rest := by
  cases d with
  | type description decl =>
    obtain ⟨decl', _, hdecl, h⟩ := bind_eq_ok h
    cases h
    exact bodyParser_takes hlacks hdecl
  | extendType decl =>
    obtain ⟨decl', _, hdecl, h⟩ := bind_eq_ok h
    split at h
    · cases h
    · cases h
      exact bodyParser_takes hlacks hdecl
  | extendSchema directives roots =>
    obtain ⟨roots', _, hroots, h⟩ := bind_eq_ok h
    split at h
    · cases h
    · cases h
      exact (Takes.optionalBetween Takes.parseRootType).run hroots
  | _ => cases hlacks

/-- **A definition that lacks its braces takes a selection set behind it**, and nothing else: what stands behind
the selection set is left. -/
theorem parseDefinition_absorbs {allowed : StringLiteral → Prop} {d d' : Definition} {o : Operation}
    {ts rest : List Token} (hwf : d.WellFormed allowed) (hlacks : d.lacksBraces = true)
    (hshort : o.isShorthand = true) (hne : o.selections ≠ [])
    (hsound : Sound (d.layout.tokens ++ (o.layout.tokens ++ ts)))
    (h : parseDefinition (d.layout.tokens ++ (o.layout.tokens ++ ts)) = .ok (d', rest)) :
    d'.emptied = d ∧ useNames d'.bracedUses = useNames o.uses ∧ rest = ts := by
  obtain ⟨inner, hinner, htokens⟩ := Operation.exists_inner hshort hne
  rw [htokens, List.cons_append, List.append_assoc, List.singleton_append] at h hsound
  have hheader := Reads.parseDefinition_header hwf
  rw [Definition.emptied_eq_self hlacks] at hheader
  rw [hheader hsound ⟨nofun, fun _ heq => (by cases heq; rfl)⟩] at h
  obtain ⟨hsame, hbraces⟩ := restParser_swallows hlacks h
  have htaken := restParser_takes hlacks h
  -- both ends of the braces are the same, so what is between them is, too
  obtain ⟨inner', hinner', htokens'⟩ := Definition.exists_inner (hsame ▸ hlacks) hbraces
  rw [htokens', List.cons_append, List.append_assoc, List.singleton_append] at htaken
  obtain ⟨hnames, hrest⟩ := hinner.eq_of_closed hinner' (List.cons.inj htaken).2
  exact ⟨hsame, hnames.symm, hrest.symm⟩

end Parser

/-! ## Definitions that take others -/

/-- Whether the second list is the first one, but for definitions that lack their braces and have taken the
query behind them for these. -/
inductive Absorbs : List Definition → List Definition → Prop where
  | nil : Absorbs [] []
  | keep (d : Definition) {definitions result : List Definition} (h : Absorbs definitions result) :
    Absorbs (d :: definitions) (d :: result)
  | take {d d' : Definition} {o : Operation} {definitions result : List Definition}
    (hlacks : d.lacksBraces = true) (hsame : d'.emptied = d)
    (hnames : useNames d'.bracedUses = useNames o.uses) (h : Absorbs definitions result) :
    Absorbs (d :: .operation o :: definitions) (d' :: result)

variable {allowed : StringLiteral → Prop}

namespace Parser

open Reads (definitionsTokens)

/-- One round of parsing definitions, given what the other rounds do. -/
theorem absorbs_round {first : Definition} {others result : List Definition} {rest : List Token}
    {p : Parser (List Definition)} (hwf : ∀ d ∈ first :: others, d.WellFormed allowed)
    (hsound : Sound (definitionsTokens (first :: others) ++ [.endOfInput]))
    (hp : ∀ {others' result mid}, (∀ d ∈ others', d.WellFormed allowed) →
      Sound (definitionsTokens others' ++ [.endOfInput]) →
      p (definitionsTokens others' ++ [Token.endOfInput]) = .ok (result, mid) → Absorbs others' result)
    (h : (do
      let first ← parseDefinition
      let others ← p
      return first :: others : Parser (List Definition))
      (definitionsTokens (first :: others) ++ [Token.endOfInput]) = .ok (result, rest)) :
    Absorbs (first :: others) result := by
  obtain ⟨d', mid, hd', h⟩ := bind_eq_ok h
  obtain ⟨others', _, hothers', h⟩ := bind_eq_ok h
  cases h
  rw [definitionsTokens, List.flatMap_cons, List.append_assoc] at hd' hsound
  obtain ⟨hfirst, hothers⟩ := List.forall_mem_cons.mp hwf
  by_cases hnext : ∀ next ∈ others.head?, first.SeparateFrom next
  · -- nothing behind the definition is taken for its braces
    have hfollow : Reads.EndsAfter first (front (definitionsTokens others ++ [Token.endOfInput])) :=
      Reads.endsAfter_next hothers hnext rfl
    rw [Reads.parseDefinition hfirst hsound hfollow] at hd'
    cases hd'
    exact .keep first (hp hothers hsound.of_append hothers')
  · cases others with
    | nil => exact absurd (fun _ hmem => by cases hmem) hnext
    | cons next others =>
      obtain ⟨hlacks, hshort⟩ : first.lacksBraces = true ∧ next.isShorthand = true := by
        simpa [Definition.SeparateFrom] using hnext
      cases next with
      | operation o =>
        obtain ⟨hoperation, hbehind⟩ := List.forall_mem_cons.mp hothers
        rw [List.flatMap_cons, List.append_assoc] at hd' hsound
        obtain ⟨hsame, hnames, rfl⟩ :=
          parseDefinition_absorbs hfirst hlacks hshort hoperation.ne_nil hsound hd'
        exact .take hlacks hsame hnames (hp hbehind hsound.of_append.of_append hothers')
      | _ => cases hshort

theorem definitionsUntilEnd_absorbs {definitions result : List Definition} {rest : List Token}
    {bound : Nat} (hwf : ∀ d ∈ definitions, d.WellFormed allowed)
    (hsound : Sound (definitionsTokens definitions ++ [.endOfInput]))
    (h : definitionsUntilEnd bound (definitionsTokens definitions ++ [.endOfInput]) = .ok (result, rest)) :
    Absorbs definitions result := by
  induction bound generalizing definitions result rest with
  | zero => cases h
  | succ bound ih =>
    obtain ⟨t, mid, hpeek, h⟩ := bind_eq_ok h
    cases hpeek
    cases definitions with
    | nil =>
      cases h
      exact .nil
    | cons first others =>
      have hfront : front (definitionsTokens (first :: others) ++ [.endOfInput]) ≠ .endOfInput := by
        rw [definitionsTokens, List.flatMap_cons, List.append_assoc]
        exact ((Reads.startsWith_definition (hwf first List.mem_cons_self)).mono
          fun _ ht => ht.2.1).front _
      rw [if_neg hfront] at h
      exact absorbs_round hwf hsound ih h

theorem parseDocument_absorbs {d d' : Document} {rest : List Token} (hwf : d.WellFormed allowed)
    (h : parseDocument (d.layout.tokens ++ [.endOfInput]) = .ok (d', rest)) :
    Absorbs d.definitions d'.definitions := by
  have hsound := Document.sound_tokens hwf
  obtain ⟨definitions⟩ := d
  obtain ⟨first, others, rfl⟩ := List.exists_cons_of_ne_nil hwf.ne_nil
  rw [Document.tokens_layout] at h hsound
  obtain ⟨first', mid, hfirst, h⟩ := bind_eq_ok h
  obtain ⟨others', mid', hothers, h⟩ := bind_eq_ok h
  cases h
  -- a document is parsed like the rounds, but for the check that it has a definition
  exact absorbs_round hwf.definitions hsound definitionsUntilEnd_absorbs
    ((run_bind hfirst).trans (run_bind hothers))

end Parser

/-- **What a printed document is parsed as**, if it is parsed at all: the document itself, where definitions that
lack their braces may have taken the query behind them for these. -/
theorem Document.parse_print_absorbs {d d' : Document} (h : d.WellFormed StringLiteral.IsRead)
    (hparse : Document.parse d.print = .ok d') : Absorbs d.definitions d'.definitions := by
  obtain ⟨rest, hrun⟩ := (Document.parse_print_eq_ok h).mp hparse
  exact Parser.parseDocument_absorbs h hrun

/-! ## What is not changed -/

variable {definitions result : List Definition}

theorem Absorbs.useNames_eq (h : Absorbs definitions result) :
    useNames (result.flatMap Definition.uses) = useNames (definitions.flatMap Definition.uses) := by
  induction h with
  | nil => rfl
  | keep d _ ih =>
    rw [List.flatMap_cons, List.flatMap_cons, useNames_append, useNames_append, ih]
  | @take d d' o _ _ _ hsame hnames _ ih =>
    have huses : useNames d'.uses = useNames d.uses ++ useNames o.uses := by
      rw [d'.uses_emptied, useNames_append, hsame, hnames]
    simp only [List.flatMap_cons, useNames_append, ih, huses, List.append_assoc]
    rfl

theorem directiveDefs_append (definitions others : List Definition) :
    directiveDefs (definitions ++ others) = directiveDefs definitions ++ directiveDefs others :=
  List.filterMap_append

theorem Absorbs.directiveDefs_eq (h : Absorbs definitions result) :
    directiveDefs result = directiveDefs definitions := by
  induction h with
  | nil => rfl
  | @keep d definitions result _ ih =>
    rw [← List.singleton_append, directiveDefs_append, ih, ← directiveDefs_append]
    rfl
  | @take d d' o definitions result hlacks hsame _ _ ih =>
    -- neither the definition, be it with braces or without, nor the query defines a directive
    have hwithout : directiveDefs [d] = [] := by
      cases d with
      | directive d => cases hlacks
      | _ => rfl
    have hwith : directiveDefs [d'] = directiveDefs [d] := by
      rw [← hsame]
      cases d' <;> rfl
    rw [← List.singleton_append, directiveDefs_append, hwith, hwithout, ih,
      ← List.singleton_append (l := .operation o :: definitions), directiveDefs_append, hwithout]
    rfl

/-! ### Printing and parsing -/

variable {d d' : Document}

/-- A printed document is parsed as one that uses directives of the same names. -/
theorem Document.useNames_parse_print (h : d.WellFormed StringLiteral.IsRead)
    (hparse : Document.parse d.print = .ok d') : useNames d'.uses = useNames d.uses :=
  (parse_print_absorbs h hparse).useNames_eq

/-- A printed document is parsed as one that defines the same directives. -/
theorem Document.directiveDefs_parse_print (h : d.WellFormed StringLiteral.IsRead)
    (hparse : Document.parse d.print = .ok d') : directiveDefs d'.definitions = directiveDefs d.definitions :=
  (parse_print_absorbs h hparse).directiveDefs_eq

end ResolverWiring.Graphql
