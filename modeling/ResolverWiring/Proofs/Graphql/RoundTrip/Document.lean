import ResolverWiring.Proofs.Graphql.RoundTrip.TypeSystem

/-!
# `Proofs.Graphql.RoundTrip.Document` — which documents are parsed as they are printed

A printed document is parsed as itself if and only if it is separable: no definition that lacks its braces stands
right in front of a query that is written as a selection set alone (`Document.parse_print_iff`). Such a definition
takes the selection set for its own braces. The document that is parsed then, if one is, has a body where the
printed one has none (`Swallows`), so it is another document.
-/

namespace ResolverWiring.Graphql

variable {allowed : StringLiteral → Prop}

/-! ## Separable documents -/

/-- Whether a definition is written as a selection set alone. -/
def Definition.isShorthand : Definition → Bool
  | .operation o => o.isShorthand
  | _ => false

/-- Whether the second definition is not taken for the braces of the first. -/
def Definition.SeparateFrom (d d' : Definition) : Prop :=
  d.lacksBraces = true → d'.isShorthand = false

instance : DecidableRel Definition.SeparateFrom :=
  fun d d' => inferInstanceAs (Decidable (d.lacksBraces = true → d'.isShorthand = false))

/-- Whether no definition takes the one behind it for its braces. -/
def Document.Separable (d : Document) : Prop := d.definitions.IsChain Definition.SeparateFrom

instance (d : Document) : Decidable d.Separable :=
  inferInstanceAs (Decidable (d.definitions.IsChain Definition.SeparateFrom))

/-! ## Separable documents are parsed as they are printed -/

namespace Parser

namespace Reads

theorem not_shorthand (description : Option StringLiteral) {word : String} {ts : List Token}
    (hword : word ≠ "implements") :
    StartsWith (descriptionTokens description ++ .name word :: ts) fun t =>
      EndsDefinition t ∧ t ≠ .endOfInput ∧ t ≠ .punctuator .braceOpen :=
  startsWith_described ⟨⟨fun h => hword (Token.name.inj h), nofun⟩, nofun, nofun⟩
    fun _ => ⟨⟨nofun, nofun⟩, nofun, nofun⟩

/-- What a definition starts with. It is a brace only if the definition is a selection set. -/
theorem startsWith_definition {d : Definition} (h : d.WellFormed allowed) :
    StartsWith d.layout.tokens fun t => EndsDefinition t ∧ t ≠ .endOfInput ∧
      (t = .punctuator .braceOpen ↔ d.isShorthand = true) := by
  have hother : d.isShorthand = false → (StartsWith d.layout.tokens fun t =>
      EndsDefinition t ∧ t ≠ .endOfInput ∧ t ≠ .punctuator .braceOpen) →
      StartsWith d.layout.tokens fun t => EndsDefinition t ∧ t ≠ .endOfInput ∧
        (t = .punctuator .braceOpen ↔ d.isShorthand = true) := by
    intro hshort hstart
    refine hstart.mono fun t ht => ⟨ht.1, ht.2.1, fun heq => absurd heq ht.2.2, fun heq => ?_⟩
    rw [hshort] at heq
    cases heq
  cases d with
  | operation o =>
    cases hshort : o.isShorthand with
    | true =>
      rw [Definition.layout, Operation.tokens_shorthand hshort]
      refine (startsWith_selections h.ne_nil).mono ?_
      rintro _ rfl
      exact ⟨⟨by decide, fun _ heq => (by cases heq; rfl)⟩, by decide, fun _ => hshort, fun _ => rfl⟩
    | false =>
      refine hother hshort ?_
      rw [Definition.layout, Operation.tokens_full hshort]
      exact not_shorthand none (by cases o.kind <;> decide)
  | fragment f =>
    refine hother rfl ?_
    rw [Definition.layout, f.tokens_layout]
    exact not_shorthand none (by decide)
  | schema description directives roots =>
    refine hother rfl ?_
    rw [Definition.layout, Layout.tokens_append, tokens_description, tokens_schema]
    exact not_shorthand _ (by decide)
  | type description decl =>
    refine hother rfl ?_
    rw [Definition.layout, Layout.tokens_append, tokens_description, decl.tokens_layout]
    refine not_shorthand _ ?_
    cases decl.body <;> simp [TypeBody.keyword]
  | directive d =>
    refine hother rfl ?_
    rw [Definition.layout, d.tokens_layout]
    exact not_shorthand _ (by decide)
  | extendSchema directives roots =>
    refine hother rfl ?_
    rw [Definition.layout, tokens_extension]
    exact not_shorthand none (by decide)
  | extendType decl =>
    refine hother rfl ?_
    rw [Definition.layout, tokens_extension]
    exact not_shorthand none (by decide)

/-- The tokens of definitions. -/
abbrev definitionsTokens (definitions : List Definition) : List Token :=
  definitions.flatMap fun d => d.layout.tokens

theorem endsAfter_next {d : Definition} {definitions : List Definition}
    (hwf : ∀ d' ∈ definitions, d'.WellFormed allowed)
    (hnext : ∀ d' ∈ definitions.head?, d.SeparateFrom d') {rest : List Token}
    (hrest : front rest = .endOfInput) : EndsAfter d (front (definitionsTokens definitions ++ rest)) := by
  cases definitions with
  | nil =>
    show EndsAfter d (front rest)
    rw [hrest]
    exact ⟨⟨nofun, nofun⟩, fun _ => nofun⟩
  | cons d' definitions =>
    refine ((startsWith_definition (hwf d' List.mem_cons_self)).append _ |>.mono ?_).front rest
    rintro t ⟨hends, -, hbrace⟩
    refine ⟨hends, fun hlacks ht => ?_⟩
    rw [hbrace, hnext d' rfl hlacks] at ht
    cases ht

theorem definitionsUntilEnd {definitions : List Definition}
    (hwf : ∀ d ∈ definitions, d.WellFormed allowed)
    (hchain : definitions.IsChain Definition.SeparateFrom) {bound : Nat}
    (hbound : definitions.length ≤ bound) :
    Reads (definitionsUntilEnd (bound + 1)) (definitionsTokens definitions) definitions
      (· = .endOfInput) := by
  induction definitions generalizing bound with
  | nil =>
    intro rest _ hfollow
    show (if front rest = .endOfInput then _ else _ : Parser (List Definition)) rest = _
    rw [if_pos hfollow]
    rfl
  | cons d definitions ih =>
    obtain ⟨bound, rfl⟩ := Nat.exists_eq_add_one_of_ne_zero (Nat.ne_zero_of_lt hbound)
    obtain ⟨hd, hdefinitions⟩ := List.forall_mem_cons.mp hwf
    have hbehind := ih hdefinitions hchain.of_cons (Nat.le_of_succ_le_succ hbound)
    have hround : Reads (do
        let first ← Parser.parseDefinition
        let others ← Parser.definitionsUntilEnd (bound + 1)
        return first :: others) (d.layout.tokens ++ definitionsTokens definitions)
        (d :: definitions) (· = .endOfInput) :=
      (parseDefinition hd).bind hbehind.result fun rest hrest =>
        endsAfter_next hdefinitions (List.isChain_cons.mp hchain).1 hrest
    obtain ⟨t, others, ht, hstart⟩ := startsWith_definition hd
    rw [definitionsTokens, List.flatMap_cons]
    rw [ht] at hround ⊢
    exact peek_else hstart.2.1 hround

theorem parseDocument {d : Document} (hwf : d.WellFormed allowed) (hseparable : d.Separable) :
    Reads parseDocument d.layout.tokens d (· = .endOfInput) := by
  obtain ⟨definitions⟩ := d
  obtain ⟨first, others, rfl⟩ := List.exists_cons_of_ne_nil hwf.ne_nil
  obtain ⟨hfirst, hothers⟩ := List.forall_mem_cons.mp hwf.definitions
  have hbehind : Reads (Parser.bounded Parser.definitionsUntilEnd) (definitionsTokens others) others
      (· = .endOfInput) := by
    have hstart : ∀ d ∈ others, StartsWith d.layout.tokens fun _ => True := fun d hd =>
      (startsWith_definition (hothers d hd)).mono fun _ _ => trivial
    exact bounded fun bound hbound => definitionsUntilEnd hothers hseparable.of_cons
      (Nat.le_trans (length_le_length_flatMap hstart) hbound)
  rw [Document.tokens_layout, List.flatMap_cons]
  exact (parseDefinition hfirst).bind hbehind.result fun rest hrest =>
    endsAfter_next hothers (List.isChain_cons.mp hseparable).1 hrest

end Reads

end Parser

/-- Tokens that can be spelled, at the end of the input. -/
theorem Parser.Sound.of_spelled {ts : List Token} (h : Spelled allowed ts) :
    Parser.Sound (ts ++ [.endOfInput]) := by
  intro t ht cause heq
  subst heq
  rcases List.mem_append.mp ht with ht | ht
  · exact h _ ht
  · cases List.mem_singleton.mp ht

theorem Document.sound_tokens {d : Document} (h : d.WellFormed allowed) :
    Parser.Sound (d.layout.tokens ++ [.endOfInput]) := .of_spelled h.spelled

/-- Parsing a printed document is a run on its tokens. -/
theorem Document.parse_print_eq_ok {d d' : Document} (h : d.WellFormed StringLiteral.IsRead) :
    Document.parse d.print = .ok d' ↔
      ∃ rest, Parser.parseDocument (d.layout.tokens ++ [.endOfInput]) = .ok (d', rest) := by
  rw [Document.parse, Parser.parseText_eq_ok, Document.tokens_print h.spelled, Parser.runOn_eq_ok]
  refine and_iff_right fun cause r heq => ?_
  exact Document.sound_tokens h (.invalid cause) (heq ▸ List.mem_cons_self) cause rfl

theorem Document.parse_print_of_separable {d : Document} (h : d.WellFormed StringLiteral.IsRead)
    (hseparable : d.Separable) : Document.parse d.print = .ok d :=
  (Document.parse_print_eq_ok h).mpr
    ⟨_, Parser.Reads.parseDocument h hseparable (Document.sound_tokens h) rfl⟩

/-! ## What becomes of the other documents -/

/-- Whether the second list is the first one, up to a definition that lacks its braces, has taken a
selection set behind it for them, and is followed by something else. -/
inductive Swallows : List Definition → List Definition → Prop where
  | here {d d' : Definition} {next : Definition} {others others' : List Definition}
    (hnext : next.isShorthand = true) (hlacks : d.lacksBraces = true) (hsame : d'.emptied = d)
    (hbraces : d'.lacksBraces = false) : Swallows (d :: next :: others) (d' :: others')
  | there (d : Definition) {definitions result : List Definition}
    (h : Swallows definitions result) : Swallows (d :: definitions) (d :: result)

theorem Swallows.ne {definitions result : List Definition} (h : Swallows definitions result) :
    definitions ≠ result := by
  induction h with
  | here _ hlacks _ hbraces =>
    intro heq
    cases heq
    rw [hlacks] at hbraces
    cases hbraces
  | there d _ ih => exact fun heq => ih (List.cons.inj heq).2

namespace Parser

/-- One round of parsing definitions that are not separable, given what the other rounds do. -/
theorem swallows_round {first : Definition} {others result : List Definition} {rest : List Token}
    {p : Parser (List Definition)} (hwf : ∀ d ∈ first :: others, d.WellFormed allowed)
    (hchain : ¬ (first :: others).IsChain Definition.SeparateFrom)
    (hsound : Sound (Reads.definitionsTokens (first :: others) ++ [.endOfInput]))
    (hp : ∀ result mid, ¬ others.IsChain Definition.SeparateFrom →
      p (Reads.definitionsTokens others ++ [Token.endOfInput]) = .ok (result, mid) →
      Swallows others result)
    (h : (do
      let first ← parseDefinition
      let others ← p
      return first :: others : Parser (List Definition))
      (Reads.definitionsTokens (first :: others) ++ [Token.endOfInput]) = .ok (result, rest)) :
    Swallows (first :: others) result := by
  obtain ⟨d', mid, hd', h⟩ := bind_eq_ok h
  obtain ⟨others', _, hothers', h⟩ := bind_eq_ok h
  cases h
  rw [Reads.definitionsTokens, List.flatMap_cons, List.append_assoc] at hd' hsound
  obtain ⟨hfirst, hothers⟩ := List.forall_mem_cons.mp hwf
  by_cases hnext : ∀ next ∈ others.head?, first.SeparateFrom next
  · have hfollow : Reads.EndsAfter first
        (front (Reads.definitionsTokens others ++ [Token.endOfInput])) :=
      Reads.endsAfter_next hothers hnext rfl
    rw [Reads.parseDefinition hfirst hsound hfollow] at hd'
    cases hd'
    exact .there first (hp _ _ (fun hc => hchain (List.isChain_cons.mpr ⟨hnext, hc⟩)) hothers')
  · cases others with
    | nil => exact absurd (fun _ hmem => by cases hmem) hnext
    | cons next others =>
      -- the first definition lacks its braces, and the next one starts with a brace
      obtain ⟨hlacks, hshort⟩ : first.lacksBraces = true ∧ next.isShorthand = true := by
        simpa [Definition.SeparateFrom] using hnext
      obtain ⟨t, ts, ht, -, -, hbrace⟩ := Reads.startsWith_definition (hothers next List.mem_cons_self)
      rw [hshort] at hbrace
      rw [List.flatMap_cons, ht, hbrace.mpr rfl] at hd' hsound
      obtain ⟨hsame, hbraces⟩ := parseDefinition_swallows hfirst hlacks hsound hd'
      exact .here hshort hlacks hsame hbraces

theorem definitionsUntilEnd_swallows {definitions result : List Definition} {rest : List Token}
    {bound : Nat} (hwf : ∀ d ∈ definitions, d.WellFormed allowed)
    (hchain : ¬ definitions.IsChain Definition.SeparateFrom)
    (hsound : Sound (Reads.definitionsTokens definitions ++ [.endOfInput]))
    (h : definitionsUntilEnd bound (Reads.definitionsTokens definitions ++ [.endOfInput])
      = .ok (result, rest)) : Swallows definitions result := by
  induction bound generalizing definitions result rest with
  | zero => cases h
  | succ bound ih =>
    cases definitions with
    | nil => exact absurd List.isChain_nil hchain
    | cons first others =>
      obtain ⟨hfirst, hothers⟩ := List.forall_mem_cons.mp hwf
      obtain ⟨t, mid, hpeek, h⟩ := bind_eq_ok h
      cases hpeek
      have hfront : front (Reads.definitionsTokens (first :: others) ++ [.endOfInput])
          ≠ .endOfInput := by
        rw [Reads.definitionsTokens, List.flatMap_cons, List.append_assoc]
        exact ((Reads.startsWith_definition hfirst).mono fun _ ht => ht.2.1).front _
      rw [if_neg hfront] at h
      refine swallows_round hwf hchain hsound (fun result mid hc hrun => ?_) h
      rw [Reads.definitionsTokens, List.flatMap_cons, List.append_assoc] at hsound
      exact ih hothers hc hsound.of_append hrun

end Parser

/-- The tokens of a document that is not separable are parsed, if at all, as a document in which a definition has
taken the one behind it for its braces. -/
theorem Parser.parseDocument_swallows {d d' : Document} {rest : List Token} (h : d.WellFormed allowed)
    (hseparable : ¬ d.Separable)
    (hrun : Parser.parseDocument (d.layout.tokens ++ [.endOfInput]) = .ok (d', rest)) :
    Swallows d.definitions d'.definitions := by
  have hsound := Document.sound_tokens h
  obtain ⟨definitions⟩ := d
  obtain ⟨first, others, rfl⟩ := List.exists_cons_of_ne_nil h.ne_nil
  rw [Document.tokens_layout] at hrun hsound
  obtain ⟨first', mid, hfirst, hrun⟩ := Parser.bind_eq_ok hrun
  obtain ⟨others', mid', hothers, hrun⟩ := Parser.bind_eq_ok hrun
  cases hrun
  -- a document is parsed like the rounds, but for the check that it has a definition
  refine Parser.swallows_round h.definitions hseparable hsound (fun result mid hc hrun => ?_)
    ((Parser.run_bind hfirst).trans (Parser.run_bind hothers))
  rw [List.flatMap_cons, List.append_assoc] at hsound
  exact Parser.definitionsUntilEnd_swallows (List.forall_mem_cons.mp h.definitions).2 hc
    hsound.of_append hrun

/-- What a printed document that is not separable is parsed as. -/
theorem Document.parse_print_swallows {d d' : Document} (h : d.WellFormed StringLiteral.IsRead)
    (hseparable : ¬ d.Separable) (hparse : Document.parse d.print = .ok d') :
    Swallows d.definitions d'.definitions := by
  obtain ⟨rest, hrun⟩ := (Document.parse_print_eq_ok h).mp hparse
  exact Parser.parseDocument_swallows h hseparable hrun

/-- **The round trip.** A document is parsed as it is printed exactly if it is separable. -/
theorem Document.parse_print_iff {d : Document} (h : d.WellFormed StringLiteral.IsRead) :
    Document.parse d.print = .ok d ↔ d.Separable := by
  constructor
  · intro hparse
    by_contra hseparable
    exact (Document.parse_print_swallows h hseparable hparse).ne rfl
  · exact Document.parse_print_of_separable h

end ResolverWiring.Graphql
