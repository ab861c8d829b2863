import ResolverWiring.Proofs.Graphql.ParserRun
import ResolverWiring.Proofs.Graphql.WellFormed

/-!
# `Proofs.Graphql.ParserOutput` — what is parsed can be written

A parser that is run on well-formed tokens builds well-formed nodes. `Yields` states this for one parser, and
holds of a composed parser when it holds of its parts; so every parser of the grammar has one lemma, in the order
of the grammar.

With `tokens_wellFormed` follows that a document that is parsed from a text is well formed
(`Document.parse_wellFormed`).
-/

namespace ResolverWiring.Graphql

open Lexer

/-- Whether a token can be in the list of tokens of a text. -/
def Token.IsRead (allowed : StringLiteral → Prop) (t : Token) : Prop :=
  t = .endOfInput ∨ (∃ cause, t = .invalid cause) ∨ t.WellFormed allowed

variable {allowed : StringLiteral → Prop}

namespace Parser

variable {α β : Type} {p : Parser α} {P : α → Prop}

/-- Whether all tokens of a list can come from a text. -/
def AllRead (allowed : StringLiteral → Prop) (ts : List Token) : Prop := ∀ t ∈ ts, t.IsRead allowed

/-- Whether a parser, run on tokens of a text, has results with a property only, and leaves tokens of
that sort. -/
def Yields (allowed : StringLiteral → Prop) (p : Parser α) (P : α → Prop) : Prop :=
  ∀ ⦃ts a rest⦄, AllRead allowed ts → p ts = .ok (a, rest) → P a ∧ AllRead allowed rest

namespace Yields

/-! ## Composed parsers -/

/-- A parser that takes nothing leaves all tokens as they were. -/
theorem pure {a : α} (ha : P a) : Yields allowed (pure a) P := by
  intro ts b rest hts h
  cases h
  exact ⟨ha, hts⟩

/-- The second parser is run on what the first one leaves, which are tokens of the text as well. -/
theorem bind {f : α → Parser β} {Q : β → Prop} (hp : Yields allowed p P)
    (hf : ∀ a, P a → Yields allowed (f a) Q) : Yields allowed (p >>= f) Q := by
  intro ts b rest hts h
  obtain ⟨a, mid, hpa, hfa⟩ := bind_eq_ok h
  obtain ⟨ha, hmid⟩ := hp hts hpa
  exact hf a ha hmid hfa

/-- Results may be put into another form. -/
theorem map {f : α → β} {Q : β → Prop} (hp : Yields allowed p P) (hf : ∀ a, P a → Q (f a)) :
    Yields allowed (f <$> p) Q := by
  rw [map_eq_pure_bind]
  exact hp.bind fun a ha => pure (hf a ha)

/-- A property of all results may be weakened. -/
theorem mono {Q : α → Prop} (hp : Yields allowed p P) (h : ∀ a, P a → Q a) : Yields allowed p Q :=
  fun _ _ _ hts hrun => (hp hts hrun).imp_left (h _)

/-- Of two parsers the one that is chosen may rely on why it is. -/
theorem ite {c : Prop} [Decidable c] {q : Parser α} (hp : c → Yields allowed p P)
    (hq : ¬ c → Yields allowed q P) : Yields allowed (if c then p else q) P := by
  split
  · exact hp ‹c›
  · exact hq ‹¬ c›

/-! ## Single tokens -/

/-- Behind the last token the end of the input is looked at, which is read like any other token. -/
theorem front_isRead {ts : List Token} (h : AllRead allowed ts) : (front ts).IsRead allowed := by
  cases ts with
  | nil => exact .inl rfl
  | cons t ts => exact h t List.mem_cons_self

theorem allRead_tail {ts : List Token} (h : AllRead allowed ts) : AllRead allowed ts.tail :=
  fun t ht => h t (List.mem_of_mem_tail ht)

/-- To look at all tokens that are left is to look at tokens of the text. -/
theorem get : Yields allowed get (AllRead allowed) := by
  intro ts a rest hts h
  cases h
  exact ⟨hts, hts⟩

theorem peek : Yields allowed peek (Token.IsRead allowed) := by
  intro ts a rest hts h
  cases h
  exact ⟨front_isRead hts, hts⟩

/-- The token behind the next one is looked at without being taken. -/
theorem peekSecond : Yields allowed peekSecond (Token.IsRead allowed) := by
  intro ts a rest hts h
  unfold Parser.peekSecond at h
  split at h
  · cases h
  · cases h
    exact ⟨front_isRead (allRead_tail hts), hts⟩

/-- Going on takes nothing, and is refused in front of a lexical error. -/
theorem resume {a b : α} {ts rest : List Token} (hts : AllRead allowed ts)
    (h : Parser.resume a ts = .ok (b, rest)) : b = a ∧ AllRead allowed rest := by
  unfold Parser.resume at h
  split at h
  · cases h
  · cases h
    exact ⟨rfl, hts⟩

/-- What stands behind the token that is taken has been behind it in the text. -/
theorem advance : Yields allowed advance (fun _ => True) :=
  fun _ _ _ hts h => ⟨trivial, (resume (allRead_tail hts) h).2⟩

/-- A parser that fails has no results, so it yields whatever is asked for. -/
theorem unexpected : Yields allowed unexpected P := fun _ _ _ _ h => by cases h

theorem failAt {ts : List Token} {cause : SyntaxError} : Yields allowed (failAt ts cause) P :=
  fun _ _ _ _ h => by cases h

theorem failExpected {wanted : String} : Yields allowed (failExpected wanted) P :=
  fun _ _ _ _ h => by cases h

/-- A mark has no more to it than that it is there. -/
theorem expect {mark : Punctuator} : Yields allowed (expect mark) (fun _ => True) :=
  peek.bind fun _ _ => ite (fun _ => advance) fun _ => failExpected

/-- Whether a mark has been taken or not, the rest is of the text. -/
theorem takeMark {mark : Punctuator} : Yields allowed (takeMark mark) (fun _ => True) :=
  peek.bind fun _ _ => ite (fun _ => advance.bind fun _ _ => pure trivial) fun _ => pure trivial

theorem expectKeyword {word : String} : Yields allowed (expectKeyword word) (fun _ => True) :=
  peek.bind fun _ _ => ite (fun _ => advance) fun _ => failExpected

theorem takeKeyword {word : String} : Yields allowed (takeKeyword word) (fun _ => True) :=
  peek.bind fun _ _ => ite (fun _ => advance.bind fun _ _ => pure trivial) fun _ => pure trivial

/-- A token for a name holds a name, since the lexer has found it. -/
theorem isName_of_isRead {text : String} (h : (Token.name text).IsRead allowed) :
    isName text = true := by
  rcases h with h | ⟨_, h⟩ | h
  · cases h
  · cases h
  · exact h

/-- Names come from tokens for names. -/
theorem parseName : Yields allowed parseName (isName · = true) := by
  refine peek.bind fun t ht => ?_
  split
  · exact advance.bind fun _ _ => pure (isName_of_isRead ht)
  · exact failExpected

/-! ## Repetition -/

/-- How many rounds a parser may run does not matter for what it yields. -/
theorem bounded {p : Nat → Parser α} (h : ∀ bound, Yields allowed (p bound) P) :
    Yields allowed (bounded p) P := fun _ _ _ hts hrun => h _ hts hrun

/-- Items are parsed one after the other, by induction on the rounds that are left. -/
theorem itemsUntil {close : Punctuator} (hp : Yields allowed p P) (bound : Nat) :
    Yields allowed (itemsUntil close p bound) (fun items => ∀ a ∈ items, P a) := by
  induction bound with
  | zero => exact unexpected
  | succ bound ih =>
    refine takeMark.bind fun _ _ => ite (fun _ => pure fun a ha => by cases ha) fun _ => ?_
    exact hp.bind fun a ha => ih.bind fun items hitems =>
      pure (List.forall_mem_cons.mpr ⟨ha, hitems⟩)

/-- There is at least one item between two marks. -/
theorem between {opening closing : Punctuator} (hp : Yields allowed p P) :
    Yields allowed (between opening p closing) (fun items => items ≠ [] ∧ ∀ a ∈ items, P a) :=
  expect.bind fun _ _ => hp.bind fun a ha => (bounded (itemsUntil hp)).bind fun items hitems =>
    pure ⟨List.cons_ne_nil a items, List.forall_mem_cons.mpr ⟨ha, hitems⟩⟩

/-- Where the opening mark is missing there are no items. -/
theorem optionalBetween {opening closing : Punctuator} (hp : Yields allowed p P) :
    Yields allowed (optionalBetween opening p closing) (fun items => ∀ a ∈ items, P a) :=
  peek.bind fun _ _ => ite (fun _ => (between hp).mono fun _ h => h.2)
    fun _ => pure fun a ha => by cases ha

/-- There may be no item between two marks. -/
theorem anyBetween {opening closing : Punctuator} (hp : Yields allowed p P) :
    Yields allowed (anyBetween opening p closing) (fun items => ∀ a ∈ items, P a) :=
  expect.bind fun _ _ => bounded (itemsUntil hp)

/-- Each item stands behind a mark of its own. -/
theorem itemsBehind {mark : Punctuator} (hp : Yields allowed p P) (bound : Nat) :
    Yields allowed (itemsBehind mark p bound) (fun items => ∀ a ∈ items, P a) := by
  induction bound with
  | zero => exact unexpected
  | succ bound ih =>
    refine takeMark.bind fun _ _ => ite (fun _ => ?_) fun _ => pure fun a ha => by cases ha
    exact hp.bind fun a ha => ih.bind fun items hitems =>
      pure (List.forall_mem_cons.mpr ⟨ha, hitems⟩)

/-- The first item may stand without a mark in front. -/
theorem separated {mark : Punctuator} (hp : Yields allowed p P) :
    Yields allowed (separated mark p) (fun items => items ≠ [] ∧ ∀ a ∈ items, P a) :=
  (takeMark.map fun _ _ => trivial).bind fun _ (_ : True) => hp.bind fun a ha =>
    (bounded (itemsBehind hp)).bind fun items hitems =>
      pure ⟨List.cons_ne_nil a items, List.forall_mem_cons.mpr ⟨ha, hitems⟩⟩

/-- Items are parsed as long as a mark is in front of the next one. -/
theorem itemsWhile {mark : Punctuator} (hp : Yields allowed p P) (bound : Nat) :
    Yields allowed (itemsWhile mark p bound) (fun items => ∀ a ∈ items, P a) := by
  induction bound with
  | zero => exact unexpected
  | succ bound ih =>
    refine peek.bind fun _ _ => ite (fun _ => ?_) fun _ => pure fun a ha => by cases ha
    exact hp.bind fun a ha => ih.bind fun items hitems =>
      pure (List.forall_mem_cons.mpr ⟨ha, hitems⟩)

/-! ## Values, directives and type references -/

/-- A token of a text is well formed, unless it is the end of the text or an error. -/
theorem wellFormed_of_isRead {t : Token} (h : t.IsRead allowed) (hend : t ≠ .endOfInput)
    (hvalid : ∀ cause, t ≠ .invalid cause) : t.WellFormed allowed := by
  rcases h with h | ⟨cause, h⟩ | h
  · exact absurd h hend
  · exact absurd h (hvalid cause)
  · exact h

/-- A name stands for a truth value, for null or for a symbol, and all of these may be constant. -/
theorem namedValue_wellFormed {name : String} (h : isName name = true) (constant : Bool) :
    (namedValue name).WellFormed allowed constant := by
  unfold namedValue
  split
  · exact .boolean true
  · exact .boolean false
  · exact .null
  · rename_i htrue hfalse hnull
    refine .enum h ?_
    simp only [reservedNames, List.mem_cons, List.not_mem_nil, or_false, not_or]
    exact ⟨htrue, hfalse, hnull⟩

theorem parseVariable : Yields allowed parseVariable (isName · = true) :=
  expect.bind fun _ _ => parseName

/-- A variable where a constant has to stand is an error, whatever was to come. -/
theorem refuseVariable {P : Value → Prop} : Yields allowed refuseVariable P := by
  refine get.bind fun _ _ => advance.bind fun _ _ => peek.bind fun t _ => ?_
  split <;> exact failAt

/-- Values, by induction on their depth: the token in front tells which kind of value follows. -/
theorem valueWithin (constant : Bool) (bound : Nat) :
    Yields allowed (valueWithin constant bound) (·.WellFormed allowed constant) := by
  induction bound with
  | zero => exact unexpected
  | succ bound ih =>
    refine peek.bind fun t ht => ?_
    -- one case for every sort of token that starts a value
    split
    · exact (anyBetween ih).bind fun items hitems => pure (.list hitems)
    · have hfield : Yields allowed (do
          let name ← Parser.parseName
          Parser.expect .colon
          let value ← Parser.valueWithin constant bound
          return (name, value))
          (fun field => isName field.1 = true ∧ field.2.WellFormed allowed constant) :=
        parseName.bind fun _ hname => expect.bind fun _ _ => ih.bind fun _ hvalue =>
          pure ⟨hname, hvalue⟩
      exact (anyBetween hfield).bind fun fields hfields =>
        pure (.object (fun f hf => (hfields f hf).1) fun f hf => (hfields f hf).2)
    · exact advance.bind fun _ _ => pure (.int (wellFormed_of_isRead ht nofun nofun))
    · exact advance.bind fun _ _ => pure (.float (wellFormed_of_isRead ht nofun nofun))
    · exact advance.bind fun _ _ => pure (.string (wellFormed_of_isRead ht nofun nofun))
    · exact advance.bind fun _ _ => pure (namedValue_wellFormed (isName_of_isRead ht) constant)
    · cases constant with
      | true => exact refuseVariable
      | false => exact parseVariable.bind fun name hname => pure (.variable rfl hname)
    · exact unexpected

/-- Values are well formed, and constant where they have to be. -/
theorem parseValue (constant : Bool) :
    Yields allowed (parseValue constant) (·.WellFormed allowed constant) :=
  bounded (valueWithin constant)

theorem parseArgument (constant : Bool) :
    Yields allowed (parseArgument constant) (·.WellFormed allowed constant) :=
  parseName.bind fun _ hname => expect.bind fun _ _ => (parseValue constant).bind fun _ hvalue =>
    pure ⟨hname, hvalue⟩

/-- Arguments are left out with their marks if there are none. -/
theorem parseArguments (constant : Bool) : Yields allowed (parseArguments constant)
    (fun arguments => ∀ a ∈ arguments, a.WellFormed allowed constant) :=
  optionalBetween (parseArgument constant)

theorem parseDirective (constant : Bool) :
    Yields allowed (parseDirective constant) (·.WellFormed allowed constant) :=
  expect.bind fun _ _ => parseName.bind fun _ hname =>
    (parseArguments constant).bind fun _ harguments => pure ⟨hname, harguments⟩

theorem parseDirectives (constant : Bool) : Yields allowed (parseDirectives constant)
    (fun directives => ∀ d ∈ directives, d.WellFormed allowed constant) :=
  bounded (itemsWhile (parseDirective constant))

/-- References to types, by induction on the lists that are opened. -/
theorem typeWithin (bound : Nat) : Yields allowed (typeWithin bound) TypeRef.WellFormed := by
  induction bound with
  | zero => exact unexpected
  | succ bound ih =>
    refine takeMark.bind fun _ _ => ite (fun _ => ?_) fun _ => ?_
    · exact ih.bind fun _ hitem => expect.bind fun _ _ => takeMark.bind fun _ _ => pure hitem
    · exact parseName.bind fun _ hname => takeMark.bind fun _ _ => pure hname

theorem parseType : Yields allowed parseType TypeRef.WellFormed := bounded typeWithin

/-- A default is a constant behind its mark, or there is none. -/
theorem parseDefault : Yields allowed parseDefault (DefaultWellFormed allowed) := by
  refine takeMark.bind fun _ _ => ite (fun _ => ?_) fun _ => pure fun v hv => by cases hv
  exact (parseValue true).bind fun value hvalue => pure fun v hv => by
    cases hv
    exact hvalue

/-! ## Executable definitions -/

/-- The name of a fragment is not the word that stands in front of a type condition. -/
theorem parseFragmentName :
    Yields allowed parseFragmentName (fun name => isName name = true ∧ name ≠ "on") := by
  -- the name is checked before it is parsed, so `bind` does not connect the two
  intro ts name rest hts h
  obtain ⟨t, mid, hpeek, h⟩ := bind_eq_ok h
  cases hpeek
  split at h
  · cases h
  · rename_i hon
    obtain ⟨hname, hrest⟩ := parseName hts h
    rw [front_of_parseName h] at hon
    exact ⟨⟨hname, fun heq => hon (congrArg some heq)⟩, hrest⟩

/-- What ends with directives and selections is made of well-formed ones. -/
theorem withSelections {make : List Directive → List Selection → α}
    {selections : Parser (List Selection)} {Q : List Selection → Prop}
    (hselections : Yields allowed selections Q)
    (hmake : ∀ directives selections, (∀ d ∈ directives, d.WellFormed allowed false) →
      Q selections → P (make directives selections)) :
    Yields allowed (withSelections make selections) P :=
  (parseDirectives false).bind fun directives hdirectives => hselections.bind fun selections h =>
    pure (hmake directives selections hdirectives h)

/-- Behind the mark of a spread there is a fragment to be named, or selections with or without a type condition. -/
theorem parseSpread {selections : Parser (List Selection)}
    (h : Yields allowed selections fun items => items ≠ [] ∧ ∀ s ∈ items, s.WellFormed allowed) :
    Yields allowed (parseSpread selections) (·.WellFormed allowed) := by
  refine expect.bind fun _ _ => takeKeyword.bind fun _ _ => ite (fun _ => ?_) fun _ => ?_
  · refine parseName.bind fun on hon => withSelections h fun directives items hdirectives hitems => ?_
    refine .inline (fun name hname => ?_) hdirectives hitems.1 hitems.2
    cases hname
    exact hon
  · refine peek.bind fun t _ => ?_
    split
    · exact parseFragmentName.bind fun fragment hfragment =>
        (parseDirectives false).bind fun directives hdirectives =>
          pure (.spread hfragment.1 hfragment.2 hdirectives)
    · exact withSelections h fun directives items hdirectives hitems =>
        .inline (fun _ hname => by cases hname) hdirectives hitems.1 hitems.2

/-- A field has an alias if a colon stands behind its first name. -/
theorem parseField {selections : Parser (List Selection)}
    (h : Yields allowed selections fun items => items ≠ [] ∧ ∀ s ∈ items, s.WellFormed allowed) :
    Yields allowed (parseField selections) (·.WellFormed allowed) := by
  -- the parser is taken apart from its end, since what is parsed last is what `h` is about
  have hnested : ∀ alias? name arguments directives, (∀ label ∈ alias?, isName label = true) →
      isName name = true → (∀ a ∈ arguments, a.WellFormed allowed false) →
      (∀ d ∈ directives, d.WellFormed allowed false) → Yields allowed (do
        let nested ← do
          if (← Parser.peek) = .punctuator .braceOpen then selections else Pure.pure []
        return Selection.field alias? name arguments directives nested)
        (·.WellFormed allowed) := by
    intro alias? name arguments directives halias hname harguments hdirectives
    refine peek.bind fun _ _ => ite (fun _ => ?_) fun _ => ?_
    · exact h.bind fun nested hnested =>
        pure (.field halias hname harguments hdirectives hnested.2)
    · exact pure (.field halias hname harguments hdirectives fun s hs => by cases hs)
  have hbehind : ∀ label : Option String × String, ((∀ name ∈ label.1, isName name = true) ∧
      isName label.2 = true) → Yields allowed (do
        let arguments ← Parser.parseArguments false
        let directives ← Parser.parseDirectives false
        let nested ← do
          if (← Parser.peek) = .punctuator .braceOpen then selections else Pure.pure []
        return Selection.field label.1 label.2 arguments directives nested)
        (·.WellFormed allowed) := fun label hlabel =>
    (parseArguments false).bind fun _ harguments =>
      (parseDirectives false).bind fun _ hdirectives =>
        hnested _ _ _ _ hlabel.1 hlabel.2 harguments hdirectives
  refine parseName.bind fun first hfirst => takeMark.bind fun _ _ => ite (fun _ => ?_) fun _ => ?_
  · exact parseName.bind fun name hname => (pure ⟨fun _ h => (by cases h; exact hfirst), hname⟩).bind
      hbehind
  · exact (pure ⟨fun _ h => (by cases h), hfirst⟩).bind hbehind

/-- Selections, by induction on their depth; a pair of braces holds at least one. -/
theorem selectionsWithin (bound : Nat) : Yields allowed (selectionsWithin bound)
    (fun items => items ≠ [] ∧ ∀ s ∈ items, s.WellFormed allowed) := by
  induction bound with
  | zero => exact unexpected
  | succ bound ih =>
    exact between (peek.bind fun _ _ => ite (fun _ => parseSpread ih) fun _ => parseField ih)

theorem parseSelections : Yields allowed parseSelections
    (fun items => items ≠ [] ∧ ∀ s ∈ items, s.WellFormed allowed) :=
  bounded selectionsWithin

/-- A word that is none of the three kinds is an error. -/
theorem parseOperationKind : Yields allowed parseOperationKind (fun _ => True) := by
  refine get.bind fun _ _ => parseName.bind fun word _ => ?_
  split
  · exact pure trivial
  · exact failAt

theorem parseVariableDef : Yields allowed parseVariableDef (·.WellFormed allowed) :=
  parseVariable.bind fun _ hname => expect.bind fun _ _ => parseType.bind fun _ htype =>
    parseDefault.bind fun _ hdefault => (parseDirectives true).bind fun _ hdirectives =>
      pure ⟨hname, htype, hdefault, hdirectives⟩

/-- An operation without a keyword is a query of selections alone. -/
theorem parseOperation : Yields allowed parseOperation (·.WellFormed allowed) := by
  refine peek.bind fun _ _ => ite (fun _ => ?_) fun _ => ?_
  · refine parseSelections.bind fun items hitems => pure ?_
    exact ⟨fun _ h => (by cases h), fun _ h => (by cases h), fun _ h => (by cases h), hitems.1,
      hitems.2⟩
  · refine parseOperationKind.bind fun kind _ => peek.bind fun t _ => ?_
    have hbehind : ∀ name? : Option String, (∀ name ∈ name?, isName name = true) →
        Yields allowed (do
          let variableDefs ← Parser.optionalBetween .parenOpen Parser.parseVariableDef .parenClose
          let directives ← Parser.parseDirectives false
          let selections ← Parser.parseSelections
          return Operation.mk kind name? variableDefs directives selections)
          (·.WellFormed allowed) := fun name? hname =>
      (optionalBetween parseVariableDef).bind fun _ hvariables =>
        (parseDirectives false).bind fun _ hdirectives =>
          parseSelections.bind fun _ hitems =>
            pure ⟨hname, hvariables, hdirectives, hitems.1, hitems.2⟩
    split
    · refine (parseName.map fun name hname => ?_).bind hbehind
      intro _ h
      cases h
      exact hname
    · exact (pure fun _ h => by cases h).bind hbehind

theorem parseFragment : Yields allowed parseFragment (·.WellFormed allowed) :=
  expectKeyword.bind fun _ _ => parseFragmentName.bind fun _ hname =>
    expectKeyword.bind fun _ _ => parseName.bind fun _ hon =>
      withSelections parseSelections fun _ _ hdirectives hitems =>
        ⟨hname.1, hname.2, hon, hdirectives, hitems.1, hitems.2⟩

/-! ## Parts of type definitions -/

/-- A description is a string literal that occurs in the text. -/
theorem parseDescription : Yields allowed parseDescription
    (fun description => ∀ literal ∈ description, allowed literal) := by
  refine peek.bind fun t ht => ?_
  split
  · refine advance.bind fun _ _ => pure fun literal hliteral => ?_
    cases hliteral
    exact wellFormed_of_isRead ht nofun nofun
  · exact pure fun _ h => by cases h

theorem parseInputValueDef : Yields allowed parseInputValueDef (·.WellFormed allowed) :=
  parseDescription.bind fun _ hdescription => parseName.bind fun _ hname =>
    expect.bind fun _ _ => parseType.bind fun _ htype => parseDefault.bind fun _ hdefault =>
      (parseDirectives true).bind fun _ hdirectives =>
        pure ⟨hdescription, hname, htype, hdefault, hdirectives⟩

theorem parseArgumentDefs : Yields allowed parseArgumentDefs
    (fun arguments => ∀ v ∈ arguments, v.WellFormed allowed) :=
  optionalBetween parseInputValueDef

theorem parseFieldDef : Yields allowed parseFieldDef (·.WellFormed allowed) :=
  parseDescription.bind fun _ hdescription => parseName.bind fun _ hname =>
    parseArgumentDefs.bind fun _ harguments => expect.bind fun _ _ =>
      parseType.bind fun _ htype => (parseDirectives true).bind fun _ hdirectives =>
        pure ⟨hdescription, hname, harguments, htype, hdirectives⟩

/-- A value of an enum is none of the reserved names, so it is not read back as another value. -/
theorem parseEnumValueDef : Yields allowed parseEnumValueDef (·.WellFormed allowed) := by
  refine parseDescription.bind fun description hdescription => ?_
  -- again a check of the token that is parsed as a name afterwards
  have hbehind : ∀ ts : List Token, (∀ text, front ts = .name text → text ∉ reservedNames) →
      ∀ ⦃v rest⦄, AllRead allowed ts → (do
        let name ← Parser.parseName
        let directives ← Parser.parseDirectives true
        return EnumValueDef.mk description name directives : Parser EnumValueDef) ts
          = .ok (v, rest) → v.WellFormed allowed ∧ AllRead allowed rest := by
    intro ts hfree v rest hts h
    obtain ⟨name, mid, hrun, h⟩ := bind_eq_ok h
    obtain ⟨hname, hmid⟩ := parseName hts hrun
    obtain ⟨directives, last, hrun', h⟩ := bind_eq_ok h
    obtain ⟨hdirectives, hlast⟩ := parseDirectives true hmid hrun'
    cases h
    exact ⟨⟨hdescription, hname, hfree name (front_of_parseName hrun), hdirectives⟩, hlast⟩
  intro ts v rest hts h
  obtain ⟨start, mid, hget, h⟩ := bind_eq_ok h
  cases hget
  cases hvalue : (front ts).value? with
  | none =>
    simp only [hvalue] at h
    refine hbehind ts (fun text hfront => ?_) hts h
    rw [hfront] at hvalue
    cases hvalue
  | some text =>
    simp only [hvalue] at h
    split at h
    · cases h
    · rename_i hfree
      refine hbehind ts (fun text' hfront => ?_) hts h
      rw [hfront] at hvalue
      cases hvalue
      exact hfree

theorem parseRootType : Yields allowed parseRootType RootType.WellFormed :=
  parseOperationKind.bind fun _ _ => expect.bind fun _ _ => parseName.bind fun _ hname => pure hname

/-- The names of interfaces, of which there may be none. -/
theorem parseInterfaces :
    Yields allowed parseInterfaces (fun interfaces => ∀ name ∈ interfaces, isName name = true) :=
  takeKeyword.bind fun _ _ => ite (fun _ => (separated parseName).mono fun _ h => h.2)
    fun _ => pure fun _ h => by cases h

theorem parseFieldDefs :
    Yields allowed parseFieldDefs (fun fields => ∀ f ∈ fields, f.WellFormed allowed) :=
  optionalBetween parseFieldDef

/-! ## Blocks -/

/-- Type blocks, one case for each keyword. -/
theorem parseTypeDecl (keyword : TypeKeyword) :
    Yields allowed (parseTypeDecl keyword) (·.WellFormed allowed) := by
  refine parseName.bind fun name hname => ?_
  cases keyword with
  | scalar => exact (parseDirectives true).bind fun _ hdirectives => pure ⟨hname, hdirectives, trivial⟩
  | object =>
    exact parseInterfaces.bind fun _ hinterfaces => (parseDirectives true).bind fun _ hdirectives =>
      parseFieldDefs.bind fun _ hfields => pure ⟨hname, hdirectives, hinterfaces, hfields⟩
  | interface =>
    exact parseInterfaces.bind fun _ hinterfaces => (parseDirectives true).bind fun _ hdirectives =>
      parseFieldDefs.bind fun _ hfields => pure ⟨hname, hdirectives, hinterfaces, hfields⟩
  | union =>
    refine (parseDirectives true).bind fun directives hdirectives => takeMark.bind fun _ _ => ?_
    refine ite (fun _ => ?_) fun _ => ?_
    · exact (separated parseName).bind fun _ hmembers => pure ⟨hname, hdirectives, hmembers.2⟩
    · exact pure ⟨hname, hdirectives, fun _ h => by cases h⟩
  | enum =>
    exact (parseDirectives true).bind fun _ hdirectives =>
      (optionalBetween parseEnumValueDef).bind fun _ hvalues => pure ⟨hname, hdirectives, hvalues⟩
  | input =>
    exact (parseDirectives true).bind fun _ hdirectives =>
      (optionalBetween parseInputValueDef).bind fun _ hfields => pure ⟨hname, hdirectives, hfields⟩

/-- A name that is no place for directives is an error. -/
theorem parseLocation : Yields allowed parseLocation (fun _ => True) := by
  refine get.bind fun _ _ => parseName.bind fun word _ => ?_
  split
  · exact pure trivial
  · exact failAt

/-- The description of a directive has been parsed before its keyword. -/
theorem parseDirectiveDef {description : Option StringLiteral}
    (hdescription : ∀ literal ∈ description, allowed literal) :
    Yields allowed (parseDirectiveDef description) (·.WellFormed allowed) :=
  expect.bind fun _ _ => parseName.bind fun _ hname => parseArgumentDefs.bind fun _ harguments =>
    takeKeyword.bind fun _ _ => expectKeyword.bind fun _ _ =>
      (separated parseLocation).bind fun _ hlocations =>
        pure ⟨hdescription, hname, harguments, hlocations.1⟩

/-! ## Definitions -/

/-- An extension has something behind its name, or it is an error. -/
theorem parseExtension : Yields allowed parseExtension (·.WellFormed allowed) := by
  refine get.bind fun start _ => peekSecond.bind fun keyword _ => ?_
  split
  · refine advance.bind fun _ _ => advance.bind fun _ _ =>
      (parseDirectives true).bind fun directives hdirectives =>
        (optionalBetween parseRootType).bind fun roots hroots => ?_
    refine ite (fun _ => unexpected) fun hparts => pure ⟨hdirectives, hroots, ?_⟩
    rwa [Bool.and_eq_true, List.isEmpty_iff, List.isEmpty_iff, not_and_or] at hparts
  · split
    · refine advance.bind fun _ _ => advance.bind fun _ _ => (parseTypeDecl _).bind fun decl hdecl => ?_
      refine ite (fun _ => unexpected) fun hparts => pure ⟨hdecl, ?_⟩
      rwa [Bool.and_eq_true, List.isEmpty_iff, not_and_or, Bool.not_eq_true] at hparts
    · exact failAt
  · exact failAt

/-- Definitions that may have a description, one case for each keyword. -/
theorem typeSystemDefinition {keyword : String} {definition : Parser Definition}
    (h : typeSystemDefinition? keyword = some definition) :
    Yields allowed definition (·.WellFormed allowed) := by
  unfold typeSystemDefinition? at h
  split at h
  · cases h
    exact parseDescription.bind fun _ hdescription => advance.bind fun _ _ =>
      (parseDirectives true).bind fun _ hdirectives => (between parseRootType).bind fun _ hroots =>
        pure ⟨hdescription, hdirectives, hroots⟩
  · cases h
    exact parseDescription.bind fun _ hdescription => advance.bind fun _ _ =>
      (parseDirectiveDef hdescription).bind fun _ hd => pure hd
  · obtain ⟨keyword, -, rfl⟩ := Option.map_eq_some_iff.mp h
    exact parseDescription.bind fun _ hdescription => advance.bind fun _ _ =>
      (parseTypeDecl keyword).bind fun _ hdecl => pure ⟨hdescription, hdecl⟩

/-- Definitions that have no description, one case for each keyword. -/
theorem otherDefinition {keyword : String} {definition : Parser Definition}
    (h : otherDefinition? keyword = some definition) :
    Yields allowed definition (·.WellFormed allowed) := by
  unfold otherDefinition? at h
  split at h
  · cases h
    exact parseFragment.map fun _ hf => hf
  · cases h
    exact parseExtension
  · obtain ⟨kind, -, rfl⟩ := Option.map_eq_some_iff.mp h
    exact parseOperation.map fun _ ho => ho

/-- A definition, given its keyword and whether a description stands in front of it. -/
theorem definitionOfKeyword (start rest : List Token) (described : Bool) (keyword : Token) :
    Yields allowed (match keyword with
      | .name word =>
        match typeSystemDefinition? word with
        | some definition => definition
        | none =>
          if described then Parser.failAt start .misplacedDescription
          else match otherDefinition? word with
            | some definition => definition
            | none => Parser.failAt rest (.unexpected keyword)
      | _ => Parser.failAt rest (.unexpected keyword)) (·.WellFormed allowed) := by
  split
  · split
    · exact typeSystemDefinition ‹_›
    · refine ite (fun _ => failAt) fun _ => ?_
      split
      · exact otherDefinition ‹_›
      · exact failAt
  · exact failAt

/-- The keyword is looked for behind a description, if there is one. -/
theorem parseDefinition : Yields allowed parseDefinition (·.WellFormed allowed) := by
  refine get.bind fun start _ => ?_
  split
  · exact parseOperation.map fun _ ho => ho
  · exact ite (fun _ => peekSecond.bind fun _ _ => definitionOfKeyword _ _ _ _)
      fun _ => peek.bind fun _ _ => definitionOfKeyword _ _ _ _

/-- Definitions are parsed up to the end of the text, by induction on the rounds that are left. -/
theorem definitionsUntilEnd (bound : Nat) : Yields allowed (definitionsUntilEnd bound)
    (fun definitions => ∀ d ∈ definitions, d.WellFormed allowed) := by
  induction bound with
  | zero => exact unexpected
  | succ bound ih =>
    refine peek.bind fun _ _ => ite (fun _ => pure fun a ha => by cases ha) fun _ => ?_
    exact parseDefinition.bind fun d hd => ih.bind fun definitions hdefinitions =>
      pure (List.forall_mem_cons.mpr ⟨hd, hdefinitions⟩)

/-- A document is one definition and those behind it. -/
theorem parseDocument : Yields allowed parseDocument (·.WellFormed allowed) :=
  parseDefinition.bind fun d hd => (bounded definitionsUntilEnd).bind fun definitions h =>
    pure ⟨List.cons_ne_nil d definitions, List.forall_mem_cons.mpr ⟨hd, h⟩⟩

end Yields

end Parser

/-- **Parsed documents are well formed**, with the string literals that occur in the text. -/
theorem Document.parse_wellFormed {text : String} {d : Document} (h : Document.parse text = .ok d)
    (hallowed : ∀ literal, .string literal ∈ tokens text.toList → literal.IsRead →
      allowed literal) : d.WellFormed allowed := by
  have hread : Parser.AllRead allowed (tokens text.toList) := by
    intro t ht
    rcases tokens_wellFormed text.toList t ht with hend | hinvalid | hwf
    · exact .inl hend
    · exact .inr (.inl hinvalid)
    · exact .inr (.inr (hwf.mono fun literal heq => hallowed literal (heq ▸ ht)))
  obtain ⟨-, rest, hrun⟩ := Parser.runOn_eq_ok.mp (Parser.parseText_eq_ok.mp h)
  exact (Parser.Yields.parseDocument hread hrun).1

end ResolverWiring.Graphql
