import ResolverWiring.Graphql.Parser.TypeSystem
import ResolverWiring.Proofs.Graphql.PrintedTokens

/-!
# `Proofs.Graphql.WellFormed` — documents that can be written down

The types of documents hold some values that no text denotes: a name that is no name, a fragment called `on`,
a schema block without a line in it. `Document.WellFormed` leaves these out, node by node; which string literals
it admits is left open.

All tokens of a well-formed document are well formed (`Document.WellFormed.spelled`).
-/

namespace ResolverWiring.Graphql

open Lexer Layout

variable {allowed : StringLiteral → Prop}

/-! ## Values, directives and type references -/

/-- Values that can be written; a constant one holds no variable. -/
inductive Value.WellFormed (allowed : StringLiteral → Prop) (constant : Bool) : Value → Prop where
  | «variable» {name : String} (hconstant : constant = false) (hname : isName name = true) :
    WellFormed allowed constant (.variable name)
  | int {digits : String} (h : IsNumber [] [] digits.toList) :
    WellFormed allowed constant (.int digits)
  | float {digits : String} (h : (Token.float digits).WellFormed allowed) :
    WellFormed allowed constant (.float digits)
  | string {literal : StringLiteral} (h : allowed literal) :
    WellFormed allowed constant (.string literal)
  | boolean (value : Bool) : WellFormed allowed constant (.boolean value)
  | null : WellFormed allowed constant .null
  | enum {symbol : String} (hname : isName symbol = true) (hfree : symbol ∉ Parser.reservedNames) :
    WellFormed allowed constant (.enum symbol)
  | list {items : List Value} (h : ∀ item ∈ items, WellFormed allowed constant item) :
    WellFormed allowed constant (.list items)
  | object {fields : List (String × Value)} (hname : ∀ field ∈ fields, isName field.1 = true)
    (hvalue : ∀ field ∈ fields, WellFormed allowed constant field.2) :
    WellFormed allowed constant (.object fields)

/-- Arguments that can be written. -/
structure Argument.WellFormed (allowed : StringLiteral → Prop) (constant : Bool) (a : Argument) :
    Prop where
  name : isName a.name = true
  value : a.value.WellFormed allowed constant

/-- Directives that can be written. -/
structure Directive.WellFormed (allowed : StringLiteral → Prop) (constant : Bool) (d : Directive) :
    Prop where
  name : isName d.name = true
  arguments : ∀ a ∈ d.arguments, a.WellFormed allowed constant

/-- Type references that can be written. -/
def TypeRef.WellFormed (type : TypeRef) : Prop := isName type.base = true

/-- The default values that can be written. -/
def DefaultWellFormed (allowed : StringLiteral → Prop) (default? : Option Value) : Prop :=
  ∀ v ∈ default?, v.WellFormed allowed true

/-! ## Parts of type definitions -/

/-- Arguments of a definition, or fields of an input type, that can be written. -/
structure InputValueDef.WellFormed (allowed : StringLiteral → Prop) (v : InputValueDef) : Prop where
  description : ∀ literal ∈ v.description, allowed literal
  name : isName v.name = true
  type : v.type.WellFormed
  default : DefaultWellFormed allowed v.default?
  directives : ∀ d ∈ v.directives, d.WellFormed allowed true

/-- Fields of an object or interface type that can be written. -/
structure FieldDef.WellFormed (allowed : StringLiteral → Prop) (f : FieldDef) : Prop where
  description : ∀ literal ∈ f.description, allowed literal
  name : isName f.name = true
  arguments : ∀ v ∈ f.arguments, v.WellFormed allowed
  type : f.type.WellFormed
  directives : ∀ d ∈ f.directives, d.WellFormed allowed true

/-- Values of an enum type that can be written. -/
structure EnumValueDef.WellFormed (allowed : StringLiteral → Prop) (v : EnumValueDef) : Prop where
  description : ∀ literal ∈ v.description, allowed literal
  name : isName v.name = true
  free : v.name ∉ Parser.reservedNames
  directives : ∀ d ∈ v.directives, d.WellFormed allowed true

/-- Root types that can be written. -/
def RootType.WellFormed (r : RootType) : Prop := isName r.type = true

/-- Bodies of type blocks that can be written. -/
def TypeBody.WellFormed (allowed : StringLiteral → Prop) : TypeBody → Prop
  | .scalar => True
  | .object interfaces fields =>
    (∀ name ∈ interfaces, isName name = true) ∧ ∀ f ∈ fields, f.WellFormed allowed
  | .interface interfaces fields =>
    (∀ name ∈ interfaces, isName name = true) ∧ ∀ f ∈ fields, f.WellFormed allowed
  | .union members => ∀ name ∈ members, isName name = true
  | .enum values => ∀ v ∈ values, v.WellFormed allowed
  | .input fields => ∀ v ∈ fields, v.WellFormed allowed

/-- Type blocks that can be written. -/
structure TypeDecl.WellFormed (allowed : StringLiteral → Prop) (decl : TypeDecl) : Prop where
  name : isName decl.name = true
  directives : ∀ d ∈ decl.directives, d.WellFormed allowed true
  body : decl.body.WellFormed allowed

/-- Directive definitions that can be written. -/
structure DirectiveDef.WellFormed (allowed : StringLiteral → Prop) (d : DirectiveDef) : Prop where
  description : ∀ literal ∈ d.description, allowed literal
  name : isName d.name = true
  arguments : ∀ v ∈ d.arguments, v.WellFormed allowed
  locations : d.locations ≠ []

/-! ## Executable definitions -/

/-- Items of a selection set that can be written. -/
inductive Selection.WellFormed (allowed : StringLiteral → Prop) : Selection → Prop where
  | field {alias? : Option String} {name : String} {arguments : List Argument}
      {directives : List Directive} {selections : List Selection}
      (halias : ∀ label ∈ alias?, isName label = true) (hname : isName name = true)
      (harguments : ∀ a ∈ arguments, a.WellFormed allowed false)
      (hdirectives : ∀ d ∈ directives, d.WellFormed allowed false)
      (hselections : ∀ s ∈ selections, WellFormed allowed s) :
    WellFormed allowed (.field alias? name arguments directives selections)
  | spread {fragment : String} {directives : List Directive} (hname : isName fragment = true)
      (hfree : fragment ≠ "on") (hdirectives : ∀ d ∈ directives, d.WellFormed allowed false) :
    WellFormed allowed (.spread fragment directives)
  | inline {on? : Option String} {directives : List Directive} {selections : List Selection}
      (hon : ∀ on ∈ on?, isName on = true)
      (hdirectives : ∀ d ∈ directives, d.WellFormed allowed false) (hne : selections ≠ [])
      (hselections : ∀ s ∈ selections, WellFormed allowed s) :
    WellFormed allowed (.inline on? directives selections)

/-- Variable declarations that can be written. -/
structure VariableDef.WellFormed (allowed : StringLiteral → Prop) (v : VariableDef) : Prop where
  name : isName v.name = true
  type : v.type.WellFormed
  default : DefaultWellFormed allowed v.default?
  directives : ∀ d ∈ v.directives, d.WellFormed allowed true

/-- Operations that can be written. -/
structure Operation.WellFormed (allowed : StringLiteral → Prop) (o : Operation) : Prop where
  name : ∀ name ∈ o.name?, isName name = true
  variableDefs : ∀ v ∈ o.variableDefs, v.WellFormed allowed
  directives : ∀ d ∈ o.directives, d.WellFormed allowed false
  ne_nil : o.selections ≠ []
  selections : ∀ s ∈ o.selections, s.WellFormed allowed

/-- Fragments that can be written. -/
structure Fragment.WellFormed (allowed : StringLiteral → Prop) (f : Fragment) : Prop where
  name : isName f.name = true
  free : f.name ≠ "on"
  on : isName f.on = true
  directives : ∀ d ∈ f.directives, d.WellFormed allowed false
  ne_nil : f.selections ≠ []
  selections : ∀ s ∈ f.selections, s.WellFormed allowed

/-! ## Documents -/

/-- Definitions that can be written. An extension adds something, and a schema block has a line. -/
def Definition.WellFormed (allowed : StringLiteral → Prop) : Definition → Prop
  | .operation o => o.WellFormed allowed
  | .fragment f => f.WellFormed allowed
  | .schema description directives roots =>
    (∀ literal ∈ description, allowed literal) ∧ (∀ d ∈ directives, d.WellFormed allowed true) ∧
      roots ≠ [] ∧ ∀ r ∈ roots, r.WellFormed
  | .type description decl => (∀ literal ∈ description, allowed literal) ∧ decl.WellFormed allowed
  | .directive d => d.WellFormed allowed
  | .extendSchema directives roots =>
    (∀ d ∈ directives, d.WellFormed allowed true) ∧ (∀ r ∈ roots, r.WellFormed) ∧
      (directives ≠ [] ∨ roots ≠ [])
  | .extendType decl =>
    decl.WellFormed allowed ∧ (decl.directives ≠ [] ∨ decl.body.isEmpty = false)

/-- Documents that can be written. -/
structure Document.WellFormed (allowed : StringLiteral → Prop) (d : Document) : Prop where
  ne_nil : d.definitions ≠ []
  definitions : ∀ definition ∈ d.definitions, definition.WellFormed allowed

/-! ## Well-formed nodes have well-formed tokens -/

/-- Whether all tokens of a list are well formed. -/
def Spelled (allowed : StringLiteral → Prop) (ts : List Token) : Prop :=
  ∀ t ∈ ts, t.WellFormed allowed

namespace Spelled

theorem nil : Spelled allowed [] := fun _ ht => by cases ht

theorem cons {t : Token} {ts : List Token} (ht : t.WellFormed allowed) (hts : Spelled allowed ts) :
    Spelled allowed (t :: ts) := List.forall_mem_cons.mpr ⟨ht, hts⟩

/-- Every mark can be spelled. -/
theorem mark {m : Punctuator} {ts : List Token} (hts : Spelled allowed ts) :
    Spelled allowed (.punctuator m :: ts) := cons trivial hts

theorem name {text : String} {ts : List Token} (htext : isName text = true)
    (hts : Spelled allowed ts) : Spelled allowed (.name text :: ts) := cons htext hts

theorem append {ts ts' : List Token} (h : Spelled allowed ts) (h' : Spelled allowed ts') :
    Spelled allowed (ts ++ ts') := List.forall_mem_append.mpr ⟨h, h'⟩

/-- Items can be spelled one after the other if each of them can. -/
theorem flatMap {α : Type} {spell : α → List Token} {items : List α}
    (h : ∀ a ∈ items, Spelled allowed (spell a)) : Spelled allowed (items.flatMap spell) := by
  intro t ht
  obtain ⟨a, ha, ht⟩ := List.mem_flatMap.mp ht
  exact h a ha t ht

theorem enclosed {α : Type} {spell : α → List Token} {items : List α} {opening closing : Punctuator}
    (h : ∀ a ∈ items, Spelled allowed (spell a)) :
    Spelled allowed (Layout.enclosed opening closing (items.map spell)) := by
  unfold Layout.enclosed
  split
  · exact nil
  · rw [← List.flatMap_def]
    exact mark ((flatMap h).append (mark nil))

/-- Names with a mark between them. -/
theorem names {separator : Punctuator} {names : List String} (h : ∀ name ∈ names, isName name = true) :
    Spelled allowed (namesTokens separator names) := by
  cases names with
  | nil => exact nil
  | cons first others =>
    obtain ⟨hfirst, hothers⟩ := List.forall_mem_cons.mp h
    exact name hfirst (flatMap fun other hother => mark (name (hothers other hother) nil))

/-- A description is spelled as its literal is. -/
theorem description {literal? : Option StringLiteral} (h : ∀ literal ∈ literal?, allowed literal) :
    Spelled allowed (descriptionTokens literal?) := by
  cases literal? with
  | none => exact nil
  | some literal => exact cons (h literal rfl) nil

end Spelled

/-- Values, by induction on them. -/
theorem Value.WellFormed.spelled {constant : Bool} {v : Value}
    (h : v.WellFormed allowed constant) : Spelled allowed v.layout.tokens := by
  induction h with
  | «variable» _ hname =>
    rw [tokens_variable]
    exact .mark (.name hname .nil)
  | int h =>
    rw [tokens_int]
    exact .cons h .nil
  | float h =>
    rw [tokens_float]
    exact .cons h .nil
  | string h =>
    rw [tokens_string]
    exact .cons h .nil
  | boolean value =>
    rw [tokens_boolean]
    cases value
    · exact .name (by decide) .nil
    · exact .name (by decide) .nil
  | null =>
    rw [tokens_null]
    exact .name (by decide) .nil
  | enum hname _ =>
    rw [tokens_enum]
    exact .name hname .nil
  | list _ ih =>
    rw [tokens_list]
    exact .mark (.append (.flatMap ih) (.mark .nil))
  | object hname _ ih =>
    rw [tokens_object]
    exact .mark (.append (.flatMap fun field hfield =>
      .name (hname field hfield) (.mark (ih field hfield))) (.mark .nil))

/-- An argument is its name, a colon and its value. -/
theorem Argument.WellFormed.spelled {constant : Bool} {a : Argument}
    (h : a.WellFormed allowed constant) : Spelled allowed a.layout.tokens := by
  rw [a.tokens_layout]
  exact .name h.name (.mark h.value.spelled)

/-- A directive is its mark, its name and its arguments. -/
theorem Directive.WellFormed.spelled {constant : Bool} {d : Directive}
    (h : d.WellFormed allowed constant) : Spelled allowed d.layout.tokens := by
  rw [d.tokens_layout]
  exact .mark (.name h.name (.enclosed fun a ha => (h.arguments a ha).spelled))

theorem Spelled.directives {constant : Bool} {directives : List Directive}
    (h : ∀ d ∈ directives, d.WellFormed allowed constant) :
    Spelled allowed (directives.flatMap fun d => d.layout.tokens) :=
  flatMap fun d hd => (h d hd).spelled

theorem Spelled.required (required : Bool) : Spelled allowed (requiredToken required) := by
  cases required
  · exact nil
  · exact mark nil

/-- References to types, by induction on them. -/
theorem TypeRef.WellFormed.spelled {type : TypeRef} (h : type.WellFormed) :
    Spelled allowed type.layout.tokens := by
  induction type with
  | named name required =>
    rw [tokens_named]
    exact .name h (.required required)
  | list item required ih =>
    rw [tokens_list]
    exact .mark (.append (ih h) (.mark (.required required)))

theorem Spelled.default {default? : Option Value} (h : DefaultWellFormed allowed default?) :
    Spelled allowed (defaultTokens default?) := by
  cases default? with
  | none => exact nil
  | some v => exact mark (h v rfl).spelled

theorem InputValueDef.WellFormed.spelled {v : InputValueDef} (h : v.WellFormed allowed) :
    Spelled allowed v.layout.tokens := by
  rw [v.tokens_layout]
  exact .append (.description h.description) (.name h.name (.mark (.append h.type.spelled
    (.append (.default h.default) (.directives h.directives)))))

/-- A field definition is spelled part by part, as it is laid out. -/
theorem FieldDef.WellFormed.spelled {f : FieldDef} (h : f.WellFormed allowed) :
    Spelled allowed f.layout.tokens := by
  rw [f.tokens_layout]
  exact .append (.description h.description) (.name h.name
    (.append (.enclosed fun v hv => (h.arguments v hv).spelled)
      (.mark (.append h.type.spelled (.directives h.directives)))))

/-- That the name is no reserved one does not matter for its spelling. -/
theorem EnumValueDef.WellFormed.spelled {v : EnumValueDef} (h : v.WellFormed allowed) :
    Spelled allowed v.layout.tokens := by
  rw [v.tokens_layout]
  exact .append (.description h.description) (.name h.name (.directives h.directives))

/-- The keywords of operations are names. -/
theorem isName_keyword (kind : OperationKind) : isName kind.keyword = true := by
  cases kind <;> decide

theorem RootType.WellFormed.spelled {r : RootType} (h : r.WellFormed) :
    Spelled allowed r.layout.tokens := by
  rw [r.tokens_layout]
  exact .name (isName_keyword r.operation) (.mark (.name h .nil))

/-- What follows the name of a type, one case for each kind of type. -/
theorem TypeBody.WellFormed.spelled {directives : List Directive} {body : TypeBody}
    (hdirectives : ∀ d ∈ directives, d.WellFormed allowed true) (h : body.WellFormed allowed) :
    Spelled allowed (bodyTokens directives body) := by
  have hinterfaces : ∀ {interfaces : List String}, (∀ name ∈ interfaces, isName name = true) →
      Spelled allowed (interfacesTokens interfaces) := by
    intro interfaces hnames
    unfold interfacesTokens
    split
    · exact .nil
    · exact .name (by decide) (.names hnames)
  cases body with
  | scalar => exact .directives hdirectives
  | object interfaces fields =>
    exact .append (hinterfaces h.1) (.append (.directives hdirectives)
      (.enclosed fun f hf => (h.2 f hf).spelled))
  | interface interfaces fields =>
    exact .append (hinterfaces h.1) (.append (.directives hdirectives)
      (.enclosed fun f hf => (h.2 f hf).spelled))
  | union members =>
    refine .append (.directives hdirectives) ?_
    unfold membersTokens
    split
    · exact .nil
    · exact .mark (.names h)
  | enum values =>
    exact .append (.directives hdirectives) (.enclosed fun v hv => (h v hv).spelled)
  | input fields =>
    exact .append (.directives hdirectives) (.enclosed fun v hv => (h v hv).spelled)

theorem TypeBody.isName_keyword (body : TypeBody) : isName body.keyword = true := by
  have hall : ∀ word ∈ ["scalar", "type", "interface", "union", "enum", "input"],
      isName word = true := by decide
  exact hall _ (by cases body <;> simp [keyword])

/-- A type block is its keyword, its name and what follows it. -/
theorem TypeDecl.WellFormed.spelled {decl : TypeDecl} (h : decl.WellFormed allowed) :
    Spelled allowed decl.layout.tokens := by
  rw [decl.tokens_layout]
  exact .name decl.body.isName_keyword (.name h.name (h.body.spelled h.directives))

/-- The places for directives are spelled as names. -/
theorem isName_location (l : DirectiveLocation) : isName l.name = true := by
  cases l <;> decide

theorem DirectiveDef.WellFormed.spelled {d : DirectiveDef} (h : d.WellFormed allowed) :
    Spelled allowed d.layout.tokens := by
  have hrepeatable : Spelled allowed (if d.repeatable then [.name "repeatable"] else []) := by
    cases d.repeatable
    · exact .nil
    · exact .name (by decide) .nil
  have hlocations : ∀ name ∈ d.locations.map (·.name), isName name = true := by
    intro name hname
    obtain ⟨l, -, rfl⟩ := List.mem_map.mp hname
    exact isName_location l
  rw [d.tokens_layout]
  exact .append (.description h.description) (.name (by decide) (.mark (.name h.name
    (.append (.enclosed fun v hv => (h.arguments v hv).spelled)
      (.append hrepeatable (.name (by decide) (.names hlocations)))))))

theorem Spelled.schema {directives : List Directive} {roots : List RootType}
    (hdirectives : ∀ d ∈ directives, d.WellFormed allowed true)
    (hroots : ∀ r ∈ roots, r.WellFormed) : Spelled allowed (schemaTokens directives roots) :=
  append (.directives hdirectives) (.enclosed fun r hr => (hroots r hr).spelled)

theorem Spelled.arguments {arguments : List Argument}
    (h : ∀ a ∈ arguments, a.WellFormed allowed false) :
    Spelled allowed (argumentsTokens arguments) :=
  .enclosed fun a ha => (h a ha).spelled

/-- Selections, by induction on them. -/
theorem Selection.WellFormed.spelled {s : Selection} (h : s.WellFormed allowed) :
    Spelled allowed s.layout.tokens := by
  induction h with
  | @field alias? name arguments directives selections halias hname harguments hdirectives _ ih =>
    have hlabel : Spelled allowed (labelTokens alias? name) := by
      cases alias? with
      | none => exact .name hname .nil
      | some label => exact .name (halias label rfl) (.mark (.name hname .nil))
    rw [tokens_field]
    exact .append hlabel (.append (.arguments harguments)
      (.append (.directives hdirectives) (.enclosed ih)))
  | spread hname _ hdirectives =>
    rw [tokens_spread]
    exact .mark (.name hname (.directives hdirectives))
  | @inline on? directives selections hon hdirectives _ _ ih =>
    have hcondition : Spelled allowed (conditionTokens on?) := by
      cases on? with
      | none => exact .nil
      | some on => exact .name (by decide) (.name (hon on rfl) .nil)
    rw [tokens_inline]
    exact .mark (.append hcondition (.append (.directives hdirectives) (.enclosed ih)))

theorem Spelled.selections {selections : List Selection}
    (h : ∀ s ∈ selections, s.WellFormed allowed) : Spelled allowed (selectionsTokens selections) :=
  .enclosed fun s hs => (h s hs).spelled

theorem VariableDef.WellFormed.spelled {v : VariableDef} (h : v.WellFormed allowed) :
    Spelled allowed v.layout.tokens := by
  rw [v.tokens_layout]
  exact .mark (.name h.name (.mark (.append h.type.spelled
    (.append (.default h.default) (.directives h.directives)))))

/-- An operation is spelled with its keyword, or as its selections alone. -/
theorem Operation.WellFormed.spelled {o : Operation} (h : o.WellFormed allowed) :
    Spelled allowed o.layout.tokens := by
  cases hshort : o.isShorthand with
  | true =>
    rw [tokens_shorthand hshort]
    exact .selections h.selections
  | false =>
    have hname : Spelled allowed (o.name?.toList.map .name) := by
      intro t ht
      obtain ⟨name, hname, rfl⟩ := List.mem_map.mp ht
      exact h.name name (Option.mem_toList.mp hname)
    rw [tokens_full hshort]
    exact .name (isName_keyword o.kind) (.append hname
      (.append (.enclosed fun v hv => (h.variableDefs v hv).spelled)
        (.append (.directives h.directives) (.selections h.selections))))

theorem Fragment.WellFormed.spelled {f : Fragment} (h : f.WellFormed allowed) :
    Spelled allowed f.layout.tokens := by
  rw [f.tokens_layout]
  exact .name (by decide) (.name h.name (.name (by decide) (.name h.on
    (.append (.directives h.directives) (.selections h.selections)))))

/-- Definitions, one case for each kind. -/
theorem Definition.WellFormed.spelled {d : Definition} (h : d.WellFormed allowed) :
    Spelled allowed d.layout.tokens := by
  cases d with
  | operation o => exact Operation.WellFormed.spelled h
  | fragment f => exact Fragment.WellFormed.spelled h
  | schema description directives roots =>
    obtain ⟨hdescription, hdirectives, -, hroots⟩ := h
    rw [Definition.layout, tokens_append, tokens_description, tokens_schema]
    exact .append (.description hdescription) (.name (by decide) (.schema hdirectives hroots))
  | type description decl =>
    rw [Definition.layout, tokens_append, tokens_description]
    exact .append (.description h.1) h.2.spelled
  | directive d => exact DirectiveDef.WellFormed.spelled h
  | extendSchema directives roots =>
    rw [Definition.layout, tokens_append, tokens_schema]
    exact .append (.name (by decide) .nil) (.name (by decide) (.schema h.1 h.2.1))
  | extendType decl =>
    rw [Definition.layout, tokens_append]
    exact .append (.name (by decide) .nil) h.1.spelled

/-- **The tokens of a well-formed document are well formed.** -/
theorem Document.WellFormed.spelled {d : Document} (h : d.WellFormed allowed) :
    Spelled allowed d.layout.tokens := by
  rw [d.tokens_layout]
  exact .flatMap fun definition hd => (h.definitions definition hd).spelled

end ResolverWiring.Graphql
