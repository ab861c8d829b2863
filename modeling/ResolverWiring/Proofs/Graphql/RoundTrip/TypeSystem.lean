import ResolverWiring.Proofs.Graphql.RoundTrip.Selection

/-!
# `Proofs.Graphql.RoundTrip.TypeSystem` — definitions are parsed as they are written

The parts of type definitions, and definitions of every sort. A definition that may end in braces but has none
(`Definition.lacksBraces`) takes braces behind it for its own; nothing else that can follow a definition is
mistaken for a part of it (`Reads.parseDefinition`).

What happens when such braces do follow is settled here as well: the definition gets a body that it did not have
(`parseDefinition_swallows`).
-/

namespace ResolverWiring.Graphql

namespace Parser

namespace Reads

variable {allowed : StringLiteral → Prop} {follow : Token → Prop}

/-! ## Parts of type definitions -/

theorem parseDescription {description : Option StringLiteral} :
    Reads parseDescription (descriptionTokens description) description
      (fun t => ∀ literal, t ≠ .string literal) := by
  cases description with
  | some literal => exact peek (advance.seq (pure _))
  | none =>
    intro rest _ hfollow
    show Parser.parseDescription rest = .ok (none, rest)
    rw [Parser.parseDescription, run_peek]
    generalize front rest = t at hfollow
    cases t with
    | string literal => exact absurd rfl (hfollow literal)
    | _ => rfl

theorem parseInputValueDef {v : InputValueDef} (h : v.WellFormed allowed) :
    Reads parseInputValueDef v.layout.tokens v EndsInput := by
  rw [v.tokens_layout]
  refine parseDescription.bind ((parseName v.name).seq ((expect .colon).seq
    (typed v.type h.default h.directives))) fun rest _ => ?_
  exact nofun

/-- What the layout of a described part starts with. -/
theorem startsWith_described {description : Option StringLiteral} {name : String} {ts : List Token}
    {P : Token → Prop} (hname : P (.name name)) (hstring : ∀ literal, P (.string literal)) :
    StartsWith (descriptionTokens description ++ .name name :: ts) P := by
  cases description with
  | none => exact ⟨_, _, rfl, hname⟩
  | some literal => exact ⟨_, _, rfl, hstring literal⟩

theorem startsWith_inputValueDef (v : InputValueDef) {closing : Punctuator} :
    StartsWith v.layout.tokens fun t => EndsInput t ∧ t ≠ .punctuator closing := by
  rw [v.tokens_layout]
  exact startsWith_described ⟨⟨⟨nofun, nofun⟩, nofun, nofun⟩, nofun⟩
    fun _ => ⟨⟨⟨nofun, nofun⟩, nofun, nofun⟩, nofun⟩

theorem parseArgumentDefs {arguments : List InputValueDef}
    (h : ∀ v ∈ arguments, v.WellFormed allowed) :
    Reads parseArgumentDefs (argumentDefsTokens arguments) arguments
      (· ≠ .punctuator .parenOpen) :=
  (optionalBetween (fun v hv => parseInputValueDef (h v hv))
    (fun v _ => startsWith_inputValueDef v) ⟨by decide, by decide, by decide⟩).mono
    fun _ ht _ => ht

/-- What must not follow a field of an object or interface type. -/
structure EndsField (t : Token) : Prop where
  directives : EndsDirectives t
  bang : t ≠ .punctuator .bang

theorem parseFieldDef {f : FieldDef} (h : f.WellFormed allowed) :
    Reads parseFieldDef f.layout.tokens f EndsField := by
  rw [f.tokens_layout]
  have hend := (parseDirectives h.directives).mono fun _ (h : EndsField _) => h.directives
  have htype : Reads (do
      let type ← Parser.parseType
      let directives ← Parser.parseDirectives true
      return FieldDef.mk f.description f.name f.arguments type directives)
      (f.type.layout.tokens ++ directivesTokens f.directives) f EndsField :=
    (parseType f.type).bind hend.result fun rest hrest =>
      front_behind (· ≠ .punctuator .bang) (startsWith_directives f.directives) (by decide) hrest.bang
  have harguments : Reads (do
      let arguments ← Parser.parseArgumentDefs
      Parser.expect .colon
      let type ← Parser.parseType
      let directives ← Parser.parseDirectives true
      return FieldDef.mk f.description f.name arguments type directives)
      (argumentDefsTokens f.arguments ++
        .punctuator .colon :: (f.type.layout.tokens ++ directivesTokens f.directives)) f EndsField :=
    (parseArgumentDefs h.arguments).bind ((expect .colon).seq htype) fun rest _ =>
      show Token.punctuator .colon ≠ .punctuator .parenOpen by decide
  exact parseDescription.bind ((parseName f.name).seq harguments) fun rest _ => nofun

theorem startsWith_fieldDef (f : FieldDef) :
    StartsWith f.layout.tokens fun t => EndsField t ∧ t ≠ .punctuator .braceClose := by
  rw [f.tokens_layout]
  exact startsWith_described ⟨⟨⟨nofun, nofun⟩, nofun⟩, nofun⟩
    fun _ => ⟨⟨⟨nofun, nofun⟩, nofun⟩, nofun⟩

theorem parseEnumValueDef {v : EnumValueDef} (h : v.WellFormed allowed) :
    Reads parseEnumValueDef v.layout.tokens v EndsDirectives := by
  rw [v.tokens_layout]
  have hname : Reads (do
      let name ← Parser.parseName
      let directives ← Parser.parseDirectives true
      return EnumValueDef.mk v.description name directives)
      (.name v.name :: directivesTokens v.directives) v EndsDirectives :=
    (parseName v.name).seq (parseDirectives h.directives).result
  refine parseDescription.bind ?_ fun rest _ => nofun
  intro rest hsound hfollow
  -- the name is looked at before it is taken
  show (if v.name ∈ reservedNames then _ else _ : Parser EnumValueDef) _ = _
  rw [if_neg h.free]
  exact hname hsound hfollow

theorem startsWith_enumValueDef (v : EnumValueDef) :
    StartsWith v.layout.tokens fun t => EndsDirectives t ∧ t ≠ .punctuator .braceClose := by
  rw [v.tokens_layout]
  exact startsWith_described ⟨⟨nofun, nofun⟩, nofun⟩ fun _ => ⟨⟨nofun, nofun⟩, nofun⟩

theorem parseRootType (r : RootType) : Reads parseRootType r.layout.tokens r follow := by
  rw [r.tokens_layout]
  exact (parseOperationKind r.operation).seq ((expect .colon).seq (parseName r.type).result)

theorem parseInterfaces (interfaces : List String) :
    Reads parseInterfaces (interfacesTokens interfaces) interfaces
      (fun t => (interfaces = [] → t ≠ .name "implements") ∧ t ≠ .punctuator .amp) := by
  cases interfaces with
  | nil =>
    exact (takeKeyword_none "implements").bind (pure []) fun _ hfollow => hfollow.1 rfl
  | cons first others =>
    have hnames : Reads (Parser.separated .amp Parser.parseName)
        (namesTokens .amp (first :: others)) (first :: others) (· ≠ .punctuator .amp) :=
      separated (fun name _ => parseName name) ⟨_, _, rfl, nofun⟩
    exact (takeKeyword "implements").seq (hnames.mono fun _ h => h.2)

/-! ## Type blocks and directive definitions -/

/-- What can follow a definition: no keyword of a type block's header, and no mark but a brace. -/
structure EndsDefinition (t : Token) : Prop where
  name : t ≠ .name "implements"
  mark : ∀ mark, t = .punctuator mark → mark = .braceOpen

theorem EndsDefinition.ne_mark {t : Token} (h : EndsDefinition t) {mark : Punctuator}
    (hmark : mark ≠ .braceOpen) : t ≠ .punctuator mark := fun ht => hmark (h.mark mark ht)

theorem EndsDefinition.directives {t : Token} (h : EndsDefinition t) : EndsDirectives t :=
  ⟨h.ne_mark (by decide), h.ne_mark (by decide)⟩

theorem parseUnion {name : String} {directives : List Directive} {members : List String}
    (hdirectives : ∀ d ∈ directives, d.WellFormed allowed true) :
    Reads (do
      let directives ← Parser.parseDirectives true
      let members ← do
        if ← Parser.takeMark .equals then Parser.separated .pipe Parser.parseName
        else Pure.pure []
      return TypeDecl.mk name directives (.union members))
      (directivesTokens directives ++ membersTokens members) ⟨name, directives, .union members⟩
      EndsDefinition := by
  have hmembers : Reads (do
      let members ← do
        if ← Parser.takeMark .equals then Parser.separated .pipe Parser.parseName
        else Pure.pure []
      return TypeDecl.mk name directives (.union members))
      (membersTokens members) ⟨name, directives, .union members⟩ EndsDefinition := by
    cases members with
    | nil =>
      exact (takeMark_none .equals).bind (pure _) fun _ hrest => hrest.ne_mark (by decide)
    | cons first others =>
      have hnames : Reads (Parser.separated .pipe Parser.parseName)
          (namesTokens .pipe (first :: others)) (first :: others) (· ≠ .punctuator .pipe) :=
        separated (fun name _ => parseName name) ⟨_, _, rfl, nofun⟩
      exact (takeMark .equals).seq
        (hnames.mono fun _ (h : EndsDefinition _) => h.ne_mark (by decide)).result
  refine (parseDirectives hdirectives).bind hmembers fun rest hrest => ?_
  -- behind the directives stands what follows the union, or the mark in front of its members
  cases members with
  | nil => exact hrest.directives
  | cons first others => exact show EndsDirectives (.punctuator .equals) by decide

theorem parseLocation (l : DirectiveLocation) : Reads parseLocation [.name l.name] l follow := by
  intro rest hsound hfollow
  rw [Parser.parseLocation, run_get, run_bind (parseName l.name hsound hfollow),
    DirectiveLocation.ofName?_name]
  rfl

theorem takeRepeatable (repeatable : Bool) :
    Reads (Parser.takeKeyword "repeatable") (if repeatable then [.name "repeatable"] else [])
      repeatable (· ≠ .name "repeatable") := by
  cases repeatable
  · exact takeKeyword_none "repeatable"
  · exact takeKeyword "repeatable"

theorem parseDirectiveDef {d : DirectiveDef} (h : d.WellFormed allowed) :
    Reads (parseDirectiveDef d.description) (.punctuator .atSign :: .name d.name ::
      (argumentDefsTokens d.arguments ++ ((if d.repeatable then [.name "repeatable"] else []) ++
        .name "on" :: namesTokens .pipe (d.locations.map (·.name))))) d EndsDefinition := by
  obtain ⟨first, others, hlocations⟩ := List.exists_cons_of_ne_nil h.locations
  have hnames : namesTokens .pipe (d.locations.map (·.name)) = [.name first.name] ++
      others.flatMap fun l => .punctuator .pipe :: [.name l.name] := by
    rw [hlocations, List.map_cons, namesTokens, List.flatMap_map]
    rfl
  have hseparated : Reads (Parser.separated .pipe Parser.parseLocation)
      (namesTokens .pipe (d.locations.map (·.name))) d.locations (· ≠ .punctuator .pipe) := by
    have hlocation : ∀ l ∈ first :: others,
        Reads Parser.parseLocation [.name l.name] l fun _ => True := fun l _ => parseLocation l
    rw [hnames, hlocations]
    exact separated hlocation ⟨_, _, rfl, nofun⟩
  have hend : Reads (do
      let repeatable ← Parser.takeKeyword "repeatable"
      Parser.expectKeyword "on"
      let locations ← Parser.separated .pipe Parser.parseLocation
      return DirectiveDef.mk d.description d.name d.arguments repeatable locations)
      ((if d.repeatable then [.name "repeatable"] else []) ++
        .name "on" :: namesTokens .pipe (d.locations.map (·.name))) d EndsDefinition := by
    refine (takeRepeatable d.repeatable).bind ((expectKeyword "on").seq
      (hseparated.mono fun _ h => h.ne_mark (by decide)).result) fun rest _ => ?_
    exact show Token.name "on" ≠ .name "repeatable" by decide
  refine (expect .atSign).seq ((parseName d.name).seq ((parseArgumentDefs h.arguments).bind hend ?_))
  intro rest _
  cases d.repeatable <;> exact nofun

end Reads

end Parser

/-! ## Braces at the end of a definition -/

/-- Whether a type block of this body ends in front of the braces that it may have. -/
def TypeBody.lacksBraces : TypeBody → Bool
  | .scalar => false
  | .object _ fields => fields.isEmpty
  | .interface _ fields => fields.isEmpty
  | .union _ => false
  | .enum values => values.isEmpty
  | .input fields => fields.isEmpty

/-- A body without what stands in its braces. -/
def TypeBody.emptied : TypeBody → TypeBody
  | .object interfaces _ => .object interfaces []
  | .interface interfaces _ => .interface interfaces []
  | .enum _ => .enum []
  | .input _ => .input []
  | body => body

/-- The tokens of what stands in the braces of a body, braces included. -/
def TypeBody.bracedTokens : TypeBody → List Token
  | .object _ fields => blockTokens (fun f => f.layout.tokens) fields
  | .interface _ fields => blockTokens (fun f => f.layout.tokens) fields
  | .enum values => blockTokens (fun v => v.layout.tokens) values
  | .input fields => blockTokens (fun v => v.layout.tokens) fields
  | _ => []

/-- Whether a definition ends in front of the braces that it may have, so that braces behind it would be
taken for its own. -/
def Definition.lacksBraces : Definition → Bool
  | .type _ decl => decl.body.lacksBraces
  | .extendType decl => decl.body.lacksBraces
  | .extendSchema _ roots => roots.isEmpty
  | _ => false

/-- A definition without what stands in the braces that it may lack. -/
def Definition.emptied : Definition → Definition
  | .type description decl => .type description { decl with body := decl.body.emptied }
  | .extendType decl => .extendType { decl with body := decl.body.emptied }
  | .extendSchema directives _ => .extendSchema directives []
  | d => d

/-- The tokens of what stands in the braces that a definition may lack, braces included. -/
def Definition.bracedTokens : Definition → List Token
  | .type _ decl => decl.body.bracedTokens
  | .extendType decl => decl.body.bracedTokens
  | .extendSchema _ roots => blockTokens (fun r => r.layout.tokens) roots
  | _ => []

theorem TypeBody.emptied_eq_self {body : TypeBody} (h : body.lacksBraces = true) :
    body.emptied = body := by
  cases body with
  | scalar => rfl
  | object interfaces fields => rw [emptied, List.isEmpty_iff.mp h]
  | interface interfaces fields => rw [emptied, List.isEmpty_iff.mp h]
  | union members => rfl
  | enum values => rw [emptied, List.isEmpty_iff.mp h]
  | input fields => rw [emptied, List.isEmpty_iff.mp h]

theorem Definition.emptied_eq_self {d : Definition} (h : d.lacksBraces = true) : d.emptied = d := by
  cases d with
  | type description decl => rw [emptied, TypeBody.emptied_eq_self h]
  | extendType decl => rw [emptied, TypeBody.emptied_eq_self h]
  | extendSchema directives roots => rw [emptied, List.isEmpty_iff.mp h]
  | _ => rfl

theorem TypeBody.keyword_emptied (body : TypeBody) : body.emptied.keyword = body.keyword := by
  cases body <;> rfl

theorem TypeBody.tokens_emptied (directives : List Directive) (body : TypeBody) :
    bodyTokens directives body = bodyTokens directives body.emptied ++ body.bracedTokens := by
  have hblock : ∀ {α : Type} (spell : α → List Token), blockTokens spell [] = [] := fun _ => rfl
  cases body <;>
    simp only [bodyTokens, emptied, bracedTokens, hblock, List.append_nil, List.append_assoc]

theorem tokens_extension (body : Layout) :
    (Layout.word "extend" ++ [Piece.space] ++ body).tokens = .name "extend" :: body.tokens := by
  rw [Layout.tokens_append]
  rfl

theorem Definition.tokens_emptied (d : Definition) :
    d.layout.tokens = d.emptied.layout.tokens ++ d.bracedTokens := by
  cases d with
  | type description decl =>
    rw [emptied, layout, layout, Layout.tokens_append, Layout.tokens_append, TypeDecl.tokens_layout,
      TypeDecl.tokens_layout, TypeBody.keyword_emptied, TypeBody.tokens_emptied, List.append_assoc]
    rfl
  | extendType decl =>
    rw [emptied, layout, layout, tokens_extension, tokens_extension, TypeDecl.tokens_layout,
      TypeDecl.tokens_layout, TypeBody.keyword_emptied, TypeBody.tokens_emptied]
    rfl
  | extendSchema directives roots =>
    have hblock : schemaTokens directives [] = directives.flatMap fun d => d.layout.tokens :=
      List.append_nil _
    rw [emptied, layout, layout, tokens_extension, tokens_extension, tokens_schema, tokens_schema,
      hblock]
    rfl
  | _ => exact (List.append_nil _).symm

theorem TypeBody.bracedTokens_start (body : TypeBody) : body.bracedTokens = [] ∨
    Parser.StartsWith body.bracedTokens (· = .punctuator .braceOpen) := by
  cases body with
  | scalar => exact .inl rfl
  | union members => exact .inl rfl
  | _ => exact Parser.Reads.startsWith_enclosed _ _ _

theorem Definition.bracedTokens_start (d : Definition) : d.bracedTokens = [] ∨
    Parser.StartsWith d.bracedTokens (· = .punctuator .braceOpen) := by
  cases d with
  | type description decl => exact decl.body.bracedTokens_start
  | extendType decl => exact decl.body.bracedTokens_start
  | extendSchema directives roots => exact Parser.Reads.startsWith_enclosed _ _ _
  | _ => exact .inl rfl

namespace Parser

/-! ## In front of the braces -/

/-- The type keyword of a body. -/
def typeKeyword : TypeBody → TypeKeyword
  | .scalar => .scalar
  | .object _ _ => .object
  | .interface _ _ => .interface
  | .union _ => .union
  | .enum _ => .enum
  | .input _ => .input

/-- What is left of a type block in front of its braces. -/
def bodyParser (decl : TypeDecl) : Parser TypeDecl :=
  match decl.body with
  | .object interfaces _ => do
    return ⟨decl.name, decl.directives, .object interfaces (← parseFieldDefs)⟩
  | .interface interfaces _ => do
    return ⟨decl.name, decl.directives, .interface interfaces (← parseFieldDefs)⟩
  | .enum _ => do
    let values ← optionalBetween .braceOpen parseEnumValueDef .braceClose
    return ⟨decl.name, decl.directives, .enum values⟩
  | .input _ => do
    let fields ← optionalBetween .braceOpen parseInputValueDef .braceClose
    return ⟨decl.name, decl.directives, .input fields⟩
  | _ => pure decl

/-- What is left of a definition in front of the braces that it may lack. -/
def restParser : Definition → Parser Definition
  | .type description decl => do return .type description (← bodyParser decl)
  | .extendType decl => do
    let decl ← bodyParser decl
    if decl.directives.isEmpty && decl.body.isEmpty then unexpected else return .extendType decl
  | .extendSchema directives _ => do
    let roots ← optionalBetween .braceOpen parseRootType .braceClose
    if directives.isEmpty && roots.isEmpty then unexpected
    else return .extendSchema directives roots
  | d => pure d

namespace Reads

variable {allowed : StringLiteral → Prop} {follow : Token → Prop}

/-- Interfaces and directives in front of the fields of a type. -/
theorem implementing {α : Type} {interfaces : List String} {directives : List Directive}
    {make : List String → List Directive → Parser α}
    (hdirectives : ∀ d ∈ directives, d.WellFormed allowed true) :
    LeadsTo (do
      let interfaces ← Parser.parseInterfaces
      let directives ← Parser.parseDirectives true
      make interfaces directives) (interfacesTokens interfaces ++ directivesTokens directives)
      (make interfaces directives) EndsDefinition := by
  have hend : LeadsTo (do
      let directives ← Parser.parseDirectives true
      make interfaces directives) (directivesTokens directives) (make interfaces directives)
      EndsDefinition :=
    (parseDirectives hdirectives).leadsTo.mono fun _ h => h.directives
  refine (parseInterfaces interfaces).leadsTo.trans hend fun rest hrest => ?_
  -- no directive goes on with the interfaces, and neither does what follows the definition
  exact front_behind (fun t => (interfaces = [] → t ≠ .name "implements") ∧
    t ≠ .punctuator .amp) (startsWith_directives directives) ⟨fun _ => nofun, by decide⟩
    ⟨fun _ => hrest.name, hrest.ne_mark (by decide)⟩

theorem named {α : Type} {f : String → Parser α} {name : String} {ts : List Token} {q : Parser α}
    (h : LeadsTo (f name) ts q follow) :
    LeadsTo (Parser.parseName >>= f) (.name name :: ts) q follow := by
  have hname : Reads Parser.parseName [.name name] name fun _ => True := parseName name
  exact hname.leadsTo.trans h fun _ _ => trivial

theorem parseTypeDecl_header {decl : TypeDecl}
    (hdirectives : ∀ d ∈ decl.directives, d.WellFormed allowed true) :
    LeadsTo (parseTypeDecl (typeKeyword decl.body))
      (.name decl.name :: bodyTokens decl.directives decl.body.emptied) (bodyParser decl)
      EndsDefinition := by
  obtain ⟨name, directives, body⟩ := decl
  have hblock : ∀ {α : Type} (spell : α → List Token), blockTokens spell [] = [] := fun _ => rfl
  have hend := (parseDirectives hdirectives).mono fun _ (h : EndsDefinition _) => h.directives
  cases body with
  | scalar => exact named hend.leadsTo
  | object interfaces fields =>
    simp only [TypeBody.emptied, bodyTokens, hblock, List.append_nil]
    exact named (implementing hdirectives)
  | interface interfaces fields =>
    simp only [TypeBody.emptied, bodyTokens, hblock, List.append_nil]
    exact named (implementing hdirectives)
  | union members =>
    exact named (parseUnion hdirectives)
  | enum values =>
    simp only [TypeBody.emptied, bodyTokens, hblock, List.append_nil]
    exact named hend.leadsTo
  | input fields =>
    simp only [TypeBody.emptied, bodyTokens, hblock, List.append_nil]
    exact named hend.leadsTo

/-! ## The braces -/

/-- What stands in braces, with the condition on what follows if nothing does. -/
theorem braced {α : Type} {item : Parser α} {spell : α → List Token} {items : List α}
    (hitem : ∀ a ∈ items, Reads item (spell a) a follow)
    (hstart : ∀ a ∈ items, StartsWith (spell a) fun t => follow t ∧ t ≠ .punctuator .braceClose)
    (hclose : follow (.punctuator .braceClose)) :
    Reads (Parser.optionalBetween .braceOpen item .braceClose) (blockTokens spell items) items
      (fun t => items.isEmpty = true → t ≠ .punctuator .braceOpen) :=
  (optionalBetween hitem hstart hclose).mono fun _ h hnil => h (List.isEmpty_iff.mpr hnil)

theorem bodyParser_reads {decl : TypeDecl} (h : decl.body.WellFormed allowed) :
    Reads (bodyParser decl) decl.body.bracedTokens decl
      (fun t => decl.body.lacksBraces = true → t ≠ .punctuator .braceOpen) := by
  obtain ⟨name, directives, body⟩ := decl
  cases body with
  | scalar => exact pure _
  | object interfaces fields =>
    exact (braced (fun f hf => parseFieldDef (h.2 f hf)) (fun f _ => startsWith_fieldDef f)
      ⟨⟨by decide, by decide⟩, by decide⟩).result
  | interface interfaces fields =>
    exact (braced (fun f hf => parseFieldDef (h.2 f hf)) (fun f _ => startsWith_fieldDef f)
      ⟨⟨by decide, by decide⟩, by decide⟩).result
  | union members => exact pure _
  | enum values =>
    exact (braced (fun v hv => parseEnumValueDef (h v hv)) (fun v _ => startsWith_enumValueDef v)
      (by decide)).result
  | input fields =>
    exact (braced (fun v hv => parseInputValueDef (h v hv))
      (fun v _ => startsWith_inputValueDef v) ⟨by decide, by decide, by decide⟩).result

theorem startsWith_rootType (r : RootType) :
    StartsWith r.layout.tokens fun t => True ∧ t ≠ .punctuator .braceClose := by
  rw [r.tokens_layout]
  exact ⟨_, _, rfl, trivial, nofun⟩

/-- What was parsed is kept, unless it is empty. -/
theorem unless_empty {α : Type} {p : Parser α} {ts : List Token} {a : α} {empty : α → Bool}
    {make : α → Definition} (h : Reads p ts a follow) (hempty : empty a = false) :
    Reads (do
      let a ← p
      if empty a then Parser.unexpected else return make a) ts (make a) follow := by
  have hend : Reads (if empty a then Parser.unexpected else Pure.pure (make a)) [] (make a)
      follow := by
    rw [hempty]
    exact pure (make a)
  have hrun : Reads (do
      let a ← p
      if empty a then Parser.unexpected else return make a) (ts ++ []) (make a) follow :=
    h.bind hend fun _ hfollow => hfollow
  rwa [List.append_nil] at hrun

theorem restParser_reads {d : Definition} (h : d.WellFormed allowed) :
    Reads (restParser d) d.bracedTokens d
      (fun t => d.lacksBraces = true → t ≠ .punctuator .braceOpen) := by
  cases d with
  | type description decl => exact (bodyParser_reads h.2.body).result
  | extendType decl =>
    have hparts : (fun decl : TypeDecl => decl.directives.isEmpty && decl.body.isEmpty) decl
        = false := by
      rw [Bool.and_eq_false_iff, List.isEmpty_eq_false_iff]
      exact h.2
    exact unless_empty (bodyParser_reads h.1.body) hparts
  | extendSchema directives roots =>
    have hparts : (fun roots : List RootType => directives.isEmpty && roots.isEmpty) roots
        = false := by
      rw [Bool.and_eq_false_iff, List.isEmpty_eq_false_iff, List.isEmpty_eq_false_iff]
      exact h.2.2
    exact unless_empty (braced (fun r _ => parseRootType r) (fun r _ => startsWith_rootType r)
      trivial) hparts
  | _ => exact pure _

/-! ## Definitions -/

theorem schemaParts {α : Type} {make : List Directive → List RootType → α}
    {directives : List Directive} {roots : List RootType}
    (hdirectives : ∀ d ∈ directives, d.WellFormed allowed true) (hne : roots ≠ []) :
    Reads (do
      let directives ← Parser.parseDirectives true
      let roots ← Parser.between .braceOpen Parser.parseRootType .braceClose
      return make directives roots) (schemaTokens directives roots) (make directives roots)
      follow := by
  obtain ⟨first, others, rfl⟩ := List.exists_cons_of_ne_nil hne
  have hroots : Reads (Parser.between .braceOpen Parser.parseRootType .braceClose)
      (blockTokens (fun r => r.layout.tokens) (first :: others)) (first :: others) follow :=
    between (fun r _ => parseRootType r) (fun r _ => startsWith_rootType r) trivial hne
  exact (parseDirectives hdirectives).bind hroots.result fun rest _ =>
    show EndsDirectives (.punctuator .braceOpen) by decide

/-- A keyword with nothing in front of it decides on the sort of a definition. -/
theorem parseDefinition_keyword (word : String) (ts : List Token) :
    Parser.parseDefinition (.name word :: ts) = (match typeSystemDefinition? word with
      | some definition => definition
      | none => match otherDefinition? word with
        | some definition => definition
        | none => Parser.failAt (.name word :: ts) (.unexpected (.name word))) (.name word :: ts) :=
  rfl

/-- A description is followed by the keyword of a definition of the type system. -/
theorem parseDefinition_described (literal : StringLiteral) (word : String) (ts : List Token) :
    Parser.parseDefinition (.string literal :: .name word :: ts)
      = (match typeSystemDefinition? word with
        | some definition => definition
        | none => Parser.failAt (.string literal :: .name word :: ts) .misplacedDescription)
          (.string literal :: .name word :: ts) := rfl

/-- A definition that its keyword, behind a description or none, makes one of the type system. -/
theorem typeSystemDefinition {word : String} {definition : Parser Definition}
    (hword : typeSystemDefinition? word = some definition) (description : Option StringLiteral)
    (ts : List Token) :
    Parser.parseDefinition (descriptionTokens description ++ .name word :: ts)
      = definition (descriptionTokens description ++ .name word :: ts) := by
  cases description with
  | none =>
    show Parser.parseDefinition (.name word :: ts) = _
    rw [parseDefinition_keyword, hword]
    rfl
  | some literal =>
    show Parser.parseDefinition (.string literal :: .name word :: ts) = _
    rw [parseDefinition_described, hword]
    rfl

/-- A definition of another sort, by its keyword. -/
theorem otherDefinition {word : String} {definition q : Parser Definition} {ts : List Token}
    (hnone : typeSystemDefinition? word = none) (hword : otherDefinition? word = some definition)
    (h : LeadsTo definition (.name word :: ts) q follow) :
    LeadsTo Parser.parseDefinition (.name word :: ts) q follow := by
  intro rest hsound hfollow
  rw [← h hsound hfollow, List.cons_append, parseDefinition_keyword, hnone, hword]

theorem behind_two {α : Type} {p : Parser α} {t₁ t₂ : Token} {ts : List Token} {q : Parser α}
    (h : LeadsTo p ts q follow) : LeadsTo (do
      Parser.advance
      Parser.advance
      p) (t₁ :: t₂ :: ts) q follow := by
  have hadvance : ∀ t, Reads Parser.advance [t] () fun _ => True := fun _ => advance
  exact (hadvance t₁).leadsTo.trans ((hadvance t₂).leadsTo.trans h fun _ _ => trivial)
    fun _ _ => trivial

theorem parseExtension_schema {directives : List Directive} {roots : List RootType}
    (hdirectives : ∀ d ∈ directives, d.WellFormed allowed true) :
    LeadsTo parseExtension (.name "extend" :: .name "schema" :: directivesTokens directives)
      (restParser (.extendSchema directives roots)) EndsDefinition := by
  have hhead : Reads (Parser.parseDirectives true) (directivesTokens directives) directives
      EndsDefinition := (parseDirectives hdirectives).mono fun _ h => h.directives
  intro rest hsound hfollow
  exact behind_two hhead.leadsTo hsound hfollow

theorem parseExtension_type {decl : TypeDecl}
    (hdirectives : ∀ d ∈ decl.directives, d.WellFormed allowed true) :
    LeadsTo parseExtension (.name "extend" :: .name decl.body.keyword :: .name decl.name ::
      bodyTokens decl.directives decl.body.emptied) (restParser (.extendType decl))
      EndsDefinition := by
  intro rest hsound hfollow
  have hrun := behind_two ((parseTypeDecl_header hdirectives).bind fun decl =>
    if decl.directives.isEmpty && decl.body.isEmpty then Parser.unexpected
    else Pure.pure (Definition.extendType decl)) hsound hfollow
  obtain ⟨name, directives, body⟩ := decl
  cases body <;> exact hrun

theorem parseDefinition_operation {o : Operation} (h : o.WellFormed allowed) :
    Reads Parser.parseDefinition o.layout.tokens (.operation o) follow := by
  have hrun : Reads (Definition.operation <$> Parser.parseOperation) o.layout.tokens (.operation o)
      follow := (parseOperation h).map
  cases hshort : o.isShorthand with
  | true =>
    obtain ⟨t, others, ht, rfl⟩ := startsWith_selections h.ne_nil
    rw [Operation.tokens_shorthand hshort, ht] at hrun ⊢
    intro rest hsound hfollow
    exact hrun hsound hfollow
  | false =>
    have hnone : typeSystemDefinition? o.kind.keyword = none := by cases o.kind <;> rfl
    have hword : otherDefinition? o.kind.keyword
        = some (Definition.operation <$> Parser.parseOperation) := by cases o.kind <;> rfl
    rw [Operation.tokens_full hshort] at hrun ⊢
    exact otherDefinition (q := Pure.pure (.operation o)) hnone hword hrun

/-- A definition of the type system, behind its description and its keyword. -/
theorem described {word : String} {description : Option StringLiteral} {ts : List Token}
    {p : Option StringLiteral → Parser Definition} {q : Parser Definition}
    (hword : typeSystemDefinition? word = some (do
      let description ← Parser.parseDescription
      Parser.advance
      p description))
    (h : LeadsTo (p description) ts q follow) :
    LeadsTo Parser.parseDefinition (descriptionTokens description ++ .name word :: ts) q follow := by
  have hadvance : Reads Parser.advance [.name word] () fun _ => True := advance
  have hrun : LeadsTo (do
      let description ← Parser.parseDescription
      Parser.advance
      p description) (descriptionTokens description ++ .name word :: ts) q follow :=
    parseDescription.leadsTo.trans (hadvance.leadsTo.trans h fun _ _ => trivial) fun _ _ => nofun
  intro rest hsound hfollow
  rw [← hrun hsound hfollow, List.append_assoc]
  exact typeSystemDefinition hword description (ts ++ rest)

/-- A definition is parsed as it is written up to the braces that it may lack. -/
theorem parseDefinition_header {d : Definition} (h : d.WellFormed allowed) :
    LeadsTo Parser.parseDefinition d.emptied.layout.tokens (restParser d) EndsDefinition := by
  cases d with
  | operation o => exact parseDefinition_operation h
  | fragment f =>
    have hrun : Reads (Definition.fragment <$> Parser.parseFragment) f.layout.tokens (.fragment f)
        EndsDefinition := (parseFragment h).map
    show LeadsTo Parser.parseDefinition f.layout.tokens (Pure.pure _) EndsDefinition
    rw [f.tokens_layout] at hrun ⊢
    exact otherDefinition rfl rfl hrun
  | schema description directives roots =>
    show LeadsTo _ (descriptionLayout description ++ schemaLayout directives roots).tokens _ _
    rw [Layout.tokens_append, tokens_description, tokens_schema]
    have hparts : Reads (do
        let directives ← Parser.parseDirectives true
        return Definition.schema description directives
          (← Parser.between .braceOpen Parser.parseRootType .braceClose))
        (schemaTokens directives roots) (.schema description directives roots) EndsDefinition :=
      schemaParts h.2.1 h.2.2.1
    exact described rfl hparts
  | type description decl =>
    have hword : typeSystemDefinition? decl.body.keyword = some (do
        let description ← Parser.parseDescription
        Parser.advance
        return .type description (← Parser.parseTypeDecl (typeKeyword decl.body))) := by
      cases decl.body <;> rfl
    show LeadsTo _ (descriptionLayout description
      ++ TypeDecl.layout { decl with body := decl.body.emptied }).tokens _ _
    rw [Layout.tokens_append, tokens_description, TypeDecl.tokens_layout, TypeBody.keyword_emptied]
    exact described hword ((parseTypeDecl_header h.2.directives).bind fun decl =>
      Pure.pure (Definition.type description decl))
  | directive d =>
    show LeadsTo _ d.layout.tokens _ _
    rw [d.tokens_layout]
    have hparts : Reads (do return Definition.directive (← Parser.parseDirectiveDef d.description))
        _ (.directive d) EndsDefinition := (parseDirectiveDef h).result
    exact described rfl hparts
  | extendSchema directives roots =>
    have htokens : schemaTokens directives [] = directivesTokens directives := List.append_nil _
    show LeadsTo _ (Layout.word "extend" ++ [Piece.space] ++ schemaLayout directives []).tokens _ _
    rw [tokens_extension, tokens_schema, htokens]
    exact otherDefinition rfl rfl (parseExtension_schema h.1)
  | extendType decl =>
    show LeadsTo _ (Layout.word "extend" ++ [Piece.space]
      ++ TypeDecl.layout { decl with body := decl.body.emptied }).tokens _ _
    rw [tokens_extension, TypeDecl.tokens_layout, TypeBody.keyword_emptied]
    exact otherDefinition rfl rfl (parseExtension_type h.1.directives)

/-- What must not follow a definition: a brace, if the definition lacks braces of its own. -/
def EndsAfter (d : Definition) (t : Token) : Prop :=
  EndsDefinition t ∧ (d.lacksBraces = true → t ≠ .punctuator .braceOpen)

/-- **Definitions are parsed as they are written**, unless braces follow that they would take for their
own. -/
theorem parseDefinition {d : Definition} (h : d.WellFormed allowed) :
    Reads Parser.parseDefinition d.layout.tokens d (EndsAfter d) := by
  rw [d.tokens_emptied]
  refine (parseDefinition_header h).reads ((restParser_reads h).mono fun _ h => h.2) fun rest hrest => ?_
  exact front_behind EndsDefinition d.bracedTokens_start ⟨nofun, fun _ heq => (by cases heq; rfl)⟩
    hrest.1

end Reads

/-! ## Braces that follow -/

theorem ne_nil_of_optionalBetween {α : Type} {item : Parser α} {opening closing : Punctuator}
    {items : List α} {ts rest : List Token}
    (h : optionalBetween opening item closing (.punctuator opening :: ts) = .ok (items, rest)) :
    items ≠ [] := by
  obtain ⟨t, mid, hpeek, h⟩ := bind_eq_ok h
  cases hpeek
  have hfront : front (.punctuator opening :: ts) = .punctuator opening := rfl
  rw [if_pos hfront] at h
  obtain ⟨_, _, _, h⟩ := bind_eq_ok h
  obtain ⟨first, _, _, h⟩ := bind_eq_ok h
  obtain ⟨others, _, _, h⟩ := bind_eq_ok h
  cases h
  exact List.cons_ne_nil first others

/-- What is made of the items between two marks, when the first mark is in front. -/
theorem made_of_items {α β : Type} {item : Parser α} {opening closing : Punctuator}
    {make : List α → β} {b : β} {ts rest : List Token}
    (h : (optionalBetween opening item closing >>= fun items => pure (make items))
      (.punctuator opening :: ts) = .ok (b, rest)) :
    ∃ items, b = make items ∧ items.isEmpty = false := by
  obtain ⟨items, _, hitems, h⟩ := bind_eq_ok h
  cases h
  exact ⟨items, rfl, List.isEmpty_eq_false_iff.mpr (ne_nil_of_optionalBetween hitems)⟩

theorem bodyParser_swallows {decl decl' : TypeDecl} {ts rest : List Token}
    (hlacks : decl.body.lacksBraces = true)
    (h : bodyParser decl (.punctuator .braceOpen :: ts) = .ok (decl', rest)) :
    { decl' with body := decl'.body.emptied } = decl ∧ decl'.body.lacksBraces = false := by
  obtain ⟨name, directives, body⟩ := decl
  cases body with
  | scalar => cases hlacks
  | union members => cases hlacks
  | object interfaces fields =>
    obtain ⟨fields', rfl, hfields⟩ := made_of_items h
    rw [List.isEmpty_iff.mp hlacks]
    exact ⟨rfl, hfields⟩
  | interface interfaces fields =>
    obtain ⟨fields', rfl, hfields⟩ := made_of_items h
    rw [List.isEmpty_iff.mp hlacks]
    exact ⟨rfl, hfields⟩
  | enum values =>
    obtain ⟨values', rfl, hvalues⟩ := made_of_items h
    rw [List.isEmpty_iff.mp hlacks]
    exact ⟨rfl, hvalues⟩
  | input fields =>
    obtain ⟨fields', rfl, hfields⟩ := made_of_items h
    rw [List.isEmpty_iff.mp hlacks]
    exact ⟨rfl, hfields⟩

theorem restParser_swallows {d d' : Definition} {ts rest : List Token}
    (hlacks : d.lacksBraces = true)
    (h : restParser d (.punctuator .braceOpen :: ts) = .ok (d', rest)) :
    d'.emptied = d ∧ d'.lacksBraces = false := by
  cases d with
  | type description decl =>
    obtain ⟨decl', _, hdecl, h⟩ := bind_eq_ok h
    cases h
    obtain ⟨hemptied, hbraces⟩ := bodyParser_swallows hlacks hdecl
    exact ⟨congrArg (Definition.type description) hemptied, hbraces⟩
  | extendType decl =>
    obtain ⟨decl', _, hdecl, h⟩ := bind_eq_ok h
    split at h
    · cases h
    · cases h
      obtain ⟨hemptied, hbraces⟩ := bodyParser_swallows hlacks hdecl
      exact ⟨congrArg Definition.extendType hemptied, hbraces⟩
  | extendSchema directives roots =>
    obtain ⟨roots', _, hroots, h⟩ := bind_eq_ok h
    split at h
    · cases h
    · cases h
      rw [List.isEmpty_iff.mp hlacks]
      exact ⟨rfl, List.isEmpty_eq_false_iff.mpr (ne_nil_of_optionalBetween hroots)⟩
  | _ => cases hlacks

/-- **Braces behind a definition that lacks them are taken for its own.** If it is parsed at all, it has a
body that it did not have, and is the same apart from that. -/
theorem parseDefinition_swallows {allowed : StringLiteral → Prop} {d d' : Definition}
    {ts rest : List Token} (hwf : d.WellFormed allowed) (hlacks : d.lacksBraces = true)
    (hsound : Sound (d.layout.tokens ++ .punctuator .braceOpen :: ts))
    (h : parseDefinition (d.layout.tokens ++ .punctuator .braceOpen :: ts) = .ok (d', rest)) :
    d'.emptied = d ∧ d'.lacksBraces = false := by
  have hheader := Reads.parseDefinition_header hwf
  rw [Definition.emptied_eq_self hlacks] at hheader
  rw [hheader hsound ⟨nofun, fun _ heq => (by cases heq; rfl)⟩] at h
  exact restParser_swallows hlacks h

end Parser

end ResolverWiring.Graphql
