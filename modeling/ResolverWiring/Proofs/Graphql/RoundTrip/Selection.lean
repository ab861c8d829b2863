import ResolverWiring.Proofs.Graphql.RoundTrip.Value

/-!
# `Proofs.Graphql.RoundTrip.Selection` — executable definitions are parsed as they are written

Selection sets, operations and fragments. A selection set ends in a brace of its own, so anything may follow an
operation or a fragment; only between the items of a set something can be mistaken (`EndsSelection`).
-/

namespace ResolverWiring.Graphql

namespace Parser

namespace Reads

variable {allowed : StringLiteral → Prop} {follow : Token → Prop}

/-! ## Selection sets -/

theorem parseFragmentName {name : String} (h : name ≠ "on") :
    Reads parseFragmentName [.name name] name follow := by
  have hname : (Token.name name).value? ≠ some "on" := fun heq => h (Option.some.inj heq)
  refine peek ?_
  rw [if_neg hname]
  exact parseName name

/-- What must not follow an item of a selection set. -/
structure EndsSelection (t : Token) : Prop where
  directives : EndsDirectives t
  colon : t ≠ .punctuator .colon
  brace : t ≠ .punctuator .braceOpen

theorem startsWith_selections {selections : List Selection} (h : selections ≠ []) :
    StartsWith (selectionsTokens selections) (· = .punctuator .braceOpen) := by
  obtain ⟨s, selections, rfl⟩ := List.exists_cons_of_ne_nil h
  exact ⟨_, _, rfl, rfl⟩

theorem withSelections {α : Type} {make : List Directive → List Selection → α}
    {directives : List Directive} {selections : List Selection} {p : Parser (List Selection)}
    (h : ∀ d ∈ directives, d.WellFormed allowed false) (hne : selections ≠ [])
    (hp : Reads p (selectionsTokens selections) selections follow) :
    Reads (withSelections make p) (directivesTokens directives ++ selectionsTokens selections)
      (make directives selections) follow := by
  refine (parseDirectives h).bind hp.result fun rest _ => ?_
  refine (startsWith_selections hne).mono ?_ |>.front rest
  rintro _ rfl
  exact ⟨by decide, by decide⟩

theorem startsWith_selection (s : Selection) :
    StartsWith s.layout.tokens fun t => EndsSelection t ∧ t ≠ .punctuator .braceClose := by
  cases s with
  | field alias? name arguments directives selections =>
    rw [Selection.tokens_field]
    cases alias? <;> exact ⟨_, _, rfl, ⟨⟨nofun, nofun⟩, nofun, nofun⟩, nofun⟩
  | spread fragment directives =>
    rw [Selection.tokens_spread]
    exact ⟨_, _, rfl, ⟨⟨by decide, by decide⟩, by decide, by decide⟩, by decide⟩
  | inline on? directives selections =>
    rw [Selection.tokens_inline]
    exact ⟨_, _, rfl, ⟨⟨by decide, by decide⟩, by decide, by decide⟩, by decide⟩

theorem startsWith_enclosed (opening closing : Punctuator) (items : List (List Token)) :
    Layout.enclosed opening closing items = [] ∨
      StartsWith (Layout.enclosed opening closing items) (· = .punctuator opening) := by
  cases items with
  | nil => exact .inl rfl
  | cons first others => exact .inr ⟨_, _, rfl, rfl⟩

/-- The first token behind tokens that are missing or start with a mark. -/
theorem front_behind (follow : Token → Prop) {ts rest : List Token} {mark : Punctuator}
    (h : ts = [] ∨ StartsWith ts (· = .punctuator mark)) (hmark : follow (.punctuator mark))
    (hrest : follow (front rest)) : follow (front (ts ++ rest)) :=
  front_append (h.imp id fun h => h.mono fun _ ht => ht ▸ hmark) hrest

/-- The selection set of a field, which may be missing. -/
theorem nestedSelections {make : List Selection → Selection} {items : List Selection}
    {p : Parser (List Selection)}
    (hp : items ≠ [] → Reads p (selectionsTokens items) items fun _ => True) :
    Reads (do
      let nested ← do
        if (← Parser.peek) = .punctuator .braceOpen then p else Pure.pure []
      return make nested) (selectionsTokens items) (make items) EndsSelection := by
  cases items with
  | nil =>
    intro rest _ hfollow
    show (if front rest = .punctuator .braceOpen then _ else _ : Parser Selection) rest = _
    rw [if_neg hfollow.brace]
    rfl
  | cons s items =>
    exact peek_same ((hp (List.cons_ne_nil s items)).mono fun _ _ => trivial).result

theorem parseField {alias? : Option String} {name : String} {arguments : List Argument}
    {directives : List Directive} {items : List Selection} {p : Parser (List Selection)}
    (harguments : ∀ a ∈ arguments, a.WellFormed allowed false)
    (hdirectives : ∀ d ∈ directives, d.WellFormed allowed false)
    (hp : items ≠ [] → Reads p (selectionsTokens items) items fun _ => True) :
    Reads (parseField p) (Selection.field alias? name arguments directives items).layout.tokens
      (.field alias? name arguments directives items) EndsSelection := by
  have hnested : Reads (do
      let nested ← do
        if (← Parser.peek) = .punctuator .braceOpen then p else Pure.pure []
      return Selection.field alias? name arguments directives nested) (selectionsTokens items)
      (.field alias? name arguments directives items) EndsSelection := nestedSelections hp
  have hbrace : selectionsTokens items = [] ∨
      StartsWith (selectionsTokens items) (· = .punctuator .braceOpen) :=
    startsWith_enclosed _ _ _
  have hbehind : Reads (do
      let arguments ← Parser.parseArguments false
      let directives ← Parser.parseDirectives false
      let nested ← do
        if (← Parser.peek) = .punctuator .braceOpen then p else Pure.pure []
      return Selection.field alias? name arguments directives nested)
      (argumentsTokens arguments ++ (directivesTokens directives ++ selectionsTokens items))
      (.field alias? name arguments directives items) EndsSelection := by
    refine (parseArguments harguments).bind ((parseDirectives hdirectives).bind hnested ?_) ?_
    · intro rest hrest
      exact front_behind EndsDirectives hbrace (by decide) hrest.directives
    · intro rest hrest
      rw [List.append_assoc]
      exact front_behind (· ≠ .punctuator .parenOpen) (startsWith_directives directives) (by decide)
        (front_behind (· ≠ .punctuator .parenOpen) hbrace (by decide) hrest.directives.2)
  -- without an alias, no part behind the name may start with a colon
  have hcolon : ∀ rest, EndsSelection (front rest) → front (argumentsTokens arguments ++
      (directivesTokens directives ++ selectionsTokens items) ++ rest) ≠ .punctuator .colon := by
    intro rest hrest
    rw [List.append_assoc, List.append_assoc]
    exact front_behind (· ≠ .punctuator .colon) (startsWith_enclosed _ _ _) (by decide)
      (front_behind (· ≠ .punctuator .colon) (startsWith_directives directives) (by decide)
        (front_behind (· ≠ .punctuator .colon) hbrace (by decide) hrest.colon))
  rw [Selection.tokens_field]
  cases alias? with
  | none => exact (parseName name).seq ((takeMark_none .colon).bind hbehind hcolon)
  | some label =>
    exact (parseName label).seq ((takeMark .colon).seq ((parseName name).seq hbehind))

theorem parseSpread {fragment : String} {directives : List Directive}
    {p : Parser (List Selection)} (hname : fragment ≠ "on")
    (hdirectives : ∀ d ∈ directives, d.WellFormed allowed false) :
    Reads (parseSpread p) (Selection.spread fragment directives).layout.tokens
      (.spread fragment directives) EndsSelection := by
  rw [Selection.tokens_spread]
  have hbehind : Reads (do
      let fragment ← Parser.parseFragmentName
      return Selection.spread fragment (← Parser.parseDirectives false))
      (.name fragment :: directivesTokens directives) (.spread fragment directives)
      EndsSelection :=
    (parseFragmentName hname).seq ((parseDirectives hdirectives).mono fun _ h => h.directives).result
  -- a fragment of the name that marks a type condition would be read as one
  refine (expect .spread).seq ((takeKeyword_none "on").bind (peek hbehind) ?_)
  intro rest _ heq
  exact hname (Token.name.inj heq)

theorem parseInline {on? : Option String} {directives : List Directive} {items : List Selection}
    {p : Parser (List Selection)} (hdirectives : ∀ d ∈ directives, d.WellFormed allowed false)
    (hne : items ≠ []) (hp : Reads p (selectionsTokens items) items fun _ => True) :
    Reads (Parser.parseSpread p) (Selection.inline on? directives items).layout.tokens
      (.inline on? directives items) EndsSelection := by
  have hselections : ∀ on? : Option String, Reads (Parser.withSelections (Selection.inline on?) p)
      (directivesTokens directives ++ selectionsTokens items) (.inline on? directives items)
      EndsSelection := fun on? => withSelections hdirectives hne (hp.mono fun _ _ => trivial)
  rw [Selection.tokens_inline]
  cases on? with
  | some on =>
    exact (expect .spread).seq ((takeKeyword "on").seq ((parseName on).seq (hselections (some on))))
  | none =>
    -- a mark comes first, so neither a type condition nor the name of a fragment is read
    have hstart : StartsWith (directivesTokens directives ++ selectionsTokens items)
        fun t => ∀ name, t ≠ .name name := by
      rcases startsWith_directives directives with hnil | hstart
      · rw [hnil]
        exact (startsWith_selections hne).mono fun _ ht _ => ht ▸ nofun
      · exact (hstart.append _).mono fun _ ht _ => ht ▸ nofun
    obtain ⟨t, others, ht, hname⟩ := hstart
    have hbehind := hselections none
    simp only [conditionTokens, List.nil_append]
    rw [ht] at hbehind ⊢
    refine (expect .spread).seq ((takeKeyword_none "on").bind (peek ?_) fun rest _ => hname "on")
    cases t with
    | name name => exact absurd rfl (hname name)
    | _ => exact hbehind

theorem length_selections {items : List Selection} (h : items ≠ []) :
    (selectionsTokens items).length = (items.flatMap fun s => s.layout.tokens).length + 2 := by
  obtain ⟨s, items, rfl⟩ := List.exists_cons_of_ne_nil h
  show (Token.punctuator .braceOpen :: (((s :: items).map _).flatten ++ _)).length = _
  rw [List.flatMap_def, List.length_cons, List.length_append]
  rfl

/-- The parser for an item of a selection set, given the parser for selection sets in it. -/
def selectionItem (selections : Parser (List Selection)) : Parser Selection := do
  if (← Parser.peek) = .punctuator .spread then Parser.parseSpread selections
  else Parser.parseField selections

theorem selectionsWithin_of_items {items : List Selection} (hne : items ≠ []) {bound : Nat}
    (h : ∀ s ∈ items, Reads (selectionItem (Parser.selectionsWithin bound)) s.layout.tokens s
      EndsSelection) :
    Reads (Parser.selectionsWithin (bound + 1)) (selectionsTokens items) items follow := by
  obtain ⟨s, items, rfl⟩ := List.exists_cons_of_ne_nil hne
  exact between h (fun s _ => startsWith_selection s) ⟨by decide, by decide, by decide⟩ hne

/-- A selection set is read within its length, if its items are read within theirs. -/
theorem selectionsWithin_of_length {items : List Selection} (hne : items ≠ []) {bound : Nat}
    (hbound : (selectionsTokens items).length ≤ bound)
    (h : ∀ s ∈ items, ∀ {bound : Nat}, s.layout.tokens.length ≤ bound →
      Reads (selectionItem (Parser.selectionsWithin bound)) s.layout.tokens s EndsSelection) :
    Reads (Parser.selectionsWithin bound) (selectionsTokens items) items follow := by
  rw [length_selections hne] at hbound
  obtain ⟨bound, rfl⟩ := Nat.exists_eq_add_one_of_ne_zero (Nat.ne_zero_of_lt hbound)
  refine selectionsWithin_of_items hne fun s hs => h s hs ?_
  have := length_le_of_mem (fun s : Selection => s.layout.tokens) hs
  omega

theorem selectionItem_reads {s : Selection} (h : s.WellFormed allowed) {bound : Nat}
    (hbound : s.layout.tokens.length ≤ bound) :
    Reads (selectionItem (Parser.selectionsWithin bound)) s.layout.tokens s EndsSelection := by
  induction h generalizing bound with
  | @field alias? name arguments directives items _ _ harguments hdirectives _ ih =>
    have hnested : items ≠ [] → Reads (Parser.selectionsWithin bound) (selectionsTokens items) items
        fun _ => True := by
      intro hne
      rw [Selection.tokens_field, List.length_append, List.length_append, List.length_append] at hbound
      exact selectionsWithin_of_length hne (by omega) ih
    have hfield : Reads (Parser.parseField (Parser.selectionsWithin bound))
        (Selection.field alias? name arguments directives items).layout.tokens
        (.field alias? name arguments directives items) EndsSelection :=
      parseField harguments hdirectives hnested
    -- the first token is the alias or the name, not the mark of a fragment
    obtain ⟨t, others, ht, hname⟩ : StartsWith
        (Selection.field alias? name arguments directives items).layout.tokens
        (· ≠ .punctuator .spread) := by
      rw [Selection.tokens_field]
      cases alias? <;> exact ⟨_, _, rfl, nofun⟩
    rw [ht] at hfield ⊢
    exact peek_else hname hfield
  | @spread fragment directives _ hfree hdirectives =>
    have hspread := parseSpread (p := Parser.selectionsWithin bound) hfree hdirectives
    rw [Selection.tokens_spread] at hspread ⊢
    exact peek_same hspread
  | @inline on? directives items _ hdirectives hne _ ih =>
    have hnested : Reads (Parser.selectionsWithin bound) (selectionsTokens items) items
        fun _ => True := by
      rw [Selection.tokens_inline, List.length_cons, List.length_append, List.length_append] at hbound
      exact selectionsWithin_of_length hne (by omega) ih
    have hinline : Reads (Parser.parseSpread (Parser.selectionsWithin bound))
        (Selection.inline on? directives items).layout.tokens (.inline on? directives items)
        EndsSelection :=
      parseInline hdirectives hne hnested
    rw [Selection.tokens_inline] at hinline ⊢
    exact peek_same hinline

theorem parseSelections {items : List Selection} (h : ∀ s ∈ items, s.WellFormed allowed)
    (hne : items ≠ []) : Reads parseSelections (selectionsTokens items) items follow := by
  refine bounded fun bound hbound => ?_
  exact selectionsWithin_of_length hne (Nat.le_succ_of_le hbound) fun s hs _ =>
    selectionItem_reads (h s hs)

theorem parseOperationKind (kind : OperationKind) :
    Reads parseOperationKind [.name kind.keyword] kind follow := by
  intro rest hsound hfollow
  rw [Parser.parseOperationKind, run_get, run_bind (parseName kind.keyword hsound hfollow),
    OperationKind.ofKeyword?_keyword]
  rfl

/-- What must not follow a variable declaration or an input value. -/
structure EndsInput (t : Token) : Prop where
  directives : EndsDirectives t
  equals : t ≠ .punctuator .equals
  bang : t ≠ .punctuator .bang

/-- A default value starts with its mark, if there is one. -/
theorem startsWith_default (default? : Option Value) :
    defaultTokens default? = [] ∨
      StartsWith (defaultTokens default?) (· = .punctuator .equals) := by
  cases default? with
  | none => exact .inl rfl
  | some v => exact .inr ⟨_, _, rfl, rfl⟩

/-- The parts that a variable declaration and an input value end in. -/
theorem typed {α : Type} {make : TypeRef → Option Value → List Directive → α} (type : TypeRef)
    {default? : Option Value} {directives : List Directive}
    (hdefault : DefaultWellFormed allowed default?)
    (hdirectives : ∀ d ∈ directives, d.WellFormed allowed true) :
    Reads (do
      let type ← Parser.parseType
      let default? ← Parser.parseDefault
      let directives ← Parser.parseDirectives true
      return make type default? directives)
      (type.layout.tokens ++ (defaultTokens default? ++ directivesTokens directives))
      (make type default? directives) EndsInput := by
  have hend := (parseDirectives hdirectives).mono fun _ (h : EndsInput _) => h.directives
  refine (parseType type).bind ((parseDefault hdefault).bind hend.result ?_) ?_
  · intro rest hrest
    exact front_behind (· ≠ .punctuator .equals) (startsWith_directives directives) (by decide)
      hrest.equals
  · intro rest hrest
    rw [List.append_assoc]
    exact front_behind (· ≠ .punctuator .bang) (startsWith_default default?) (by decide)
      (front_behind (· ≠ .punctuator .bang) (startsWith_directives directives) (by decide) hrest.bang)

theorem parseVariable (name : String) :
    Reads parseVariable [.punctuator .dollar, .name name] name follow :=
  (expect .dollar).seq (parseName name)

theorem parseVariableDef {v : VariableDef} (h : v.WellFormed allowed) :
    Reads parseVariableDef v.layout.tokens v EndsInput := by
  rw [v.tokens_layout]
  exact (parseVariable v.name).seq ((expect .colon).seq (typed v.type h.default h.directives))

theorem startsWith_variableDef (v : VariableDef) :
    StartsWith v.layout.tokens fun t => EndsInput t ∧ t ≠ .punctuator .parenClose := by
  rw [v.tokens_layout]
  exact ⟨_, _, rfl, ⟨⟨by decide, by decide⟩, by decide, by decide⟩, by decide⟩

theorem parseShorthand {o : Operation} (h : o.WellFormed allowed) (hshort : o.isShorthand = true) :
    Reads (do return Operation.mk .query none [] [] (← Parser.parseSelections))
      o.layout.tokens o follow := by
  rw [Operation.tokens_shorthand hshort]
  obtain ⟨kind, name?, declared, directives, selections⟩ := o
  simp only [Operation.isShorthand, Bool.and_eq_true, decide_eq_true_eq,
    Option.isNone_iff_eq_none, List.isEmpty_iff] at hshort
  obtain ⟨⟨⟨rfl, rfl⟩, rfl⟩, rfl⟩ := hshort
  exact (parseSelections h.selections h.ne_nil).result

/-- The variables, directives and selections of an operation. -/
theorem operationParts {o : Operation} (h : o.WellFormed allowed) :
    Reads (do
      let variableDefs ← Parser.optionalBetween .parenOpen Parser.parseVariableDef .parenClose
      let directives ← Parser.parseDirectives false
      let selections ← Parser.parseSelections
      return Operation.mk o.kind o.name? variableDefs directives selections)
      (variableDefsTokens o.variableDefs ++ (directivesTokens o.directives ++
        selectionsTokens o.selections)) o follow := by
  have hbrace := startsWith_selections h.ne_nil
  refine (optionalBetween (fun v hv => parseVariableDef (h.variableDefs v hv))
    (fun v _ => startsWith_variableDef v) ⟨by decide, by decide, by decide⟩).bind
    ((parseDirectives h.directives).bind (parseSelections h.selections h.ne_nil).result ?_) ?_
  · intro rest _
    refine (hbrace.mono ?_).front rest
    rintro _ rfl
    exact ⟨by decide, by decide⟩
  · intro rest _ _
    rw [List.append_assoc]
    have hparen : StartsWith (selectionsTokens o.selections) (· ≠ .punctuator .parenOpen) :=
      hbrace.mono (by rintro _ rfl; decide)
    exact front_behind (· ≠ .punctuator .parenOpen) (startsWith_directives o.directives)
      (by decide) (hparen.front rest)

/-- The parts of an operation behind its name start with a mark. -/
theorem startsWith_operationParts {o : Operation} (h : o.selections ≠ []) :
    StartsWith (variableDefsTokens o.variableDefs ++ (directivesTokens o.directives ++
      selectionsTokens o.selections)) fun t => ∃ mark, t = .punctuator mark := by
  rcases startsWith_enclosed .parenOpen .parenClose (o.variableDefs.map fun v => v.layout.tokens)
    with hnil | hstart
  · rw [variableDefsTokens, hnil, List.nil_append]
    rcases startsWith_directives o.directives with hnil | hstart
    · rw [hnil, List.nil_append]
      exact (startsWith_selections h).mono fun _ ht => ⟨_, ht⟩
    · exact (hstart.append _).mono fun _ ht => ⟨_, ht⟩
  · exact (hstart.append _).mono fun _ ht => ⟨_, ht⟩

theorem parseOperation {o : Operation} (h : o.WellFormed allowed) :
    Reads parseOperation o.layout.tokens o follow := by
  cases hshort : o.isShorthand with
  | true =>
    have hrun : Reads (do return Operation.mk .query none [] [] (← Parser.parseSelections))
        o.layout.tokens o follow := parseShorthand h hshort
    rw [Operation.tokens_shorthand hshort] at hrun ⊢
    obtain ⟨_, others, ht, rfl⟩ := startsWith_selections h.ne_nil
    rw [ht] at hrun ⊢
    exact peek_same hrun
  | false =>
    have hparts : Reads _ _ o follow := operationParts h
    rw [Operation.tokens_full hshort]
    refine peek_else nofun ((parseOperationKind o.kind).seq ?_)
    -- behind the keyword stands the name, or a mark
    cases hname : o.name? with
    | some name =>
      rw [hname] at hparts
      exact peek (((parseName name).map).seq hparts)
    | none =>
      rw [hname] at hparts
      obtain ⟨t, others, ht, mark, rfl⟩ := startsWith_operationParts (o := o) h.ne_nil
      show Reads _ (variableDefsTokens o.variableDefs ++ (directivesTokens o.directives ++
        selectionsTokens o.selections)) o follow
      rw [ht] at hparts ⊢
      exact peek hparts

theorem parseFragment {f : Fragment} (h : f.WellFormed allowed) :
    Reads parseFragment f.layout.tokens f follow := by
  rw [f.tokens_layout]
  exact (expectKeyword "fragment").seq ((parseFragmentName h.free).seq ((expectKeyword "on").seq
    ((parseName f.on).seq (withSelections h.directives h.ne_nil
      (parseSelections h.selections h.ne_nil)))))

end Reads

end Parser

end ResolverWiring.Graphql
