import ResolverWiring.Proofs.Graphql.Printer

/-!
# `Proofs.Graphql.PrintedTokens` — the tokens of every node

One equation for every kind of node: its tokens are the marks and names of the node and the tokens of its
parts. What the printer decides about blanks and line breaks is gone here, so a parser meets one form of every
node only.
-/

namespace ResolverWiring.Graphql

open Layout

/-! ## Values, directives and type references -/

/-- The commas between items are no tokens. -/
theorem Value.tokens_list (items : List Value) :
    (Value.list items).layout.tokens = .punctuator .bracketOpen ::
      (items.flatMap (fun item => item.layout.tokens) ++ [.punctuator .bracketClose]) := by
  rw [Value.layout, tokens_append, tokens_append, tokens_join rfl, List.flatMap_map]
  rfl

/-- The tokens of a field of an object value. -/
def objectFieldTokens (field : String × Value) : List Token :=
  .name field.1 :: .punctuator .colon :: field.2.layout.tokens

/-- The commas between fields are no tokens. -/
theorem Value.tokens_object (fields : List (String × Value)) :
    (Value.object fields).layout.tokens = .punctuator .braceOpen ::
      (fields.flatMap objectFieldTokens ++ [.punctuator .braceClose]) := by
  rw [Value.layout_object, tokens_append, tokens_append, tokens_join rfl, List.flatMap_map]
  rfl

theorem Value.tokens_variable (name : String) :
    (Value.variable name).layout.tokens = [.punctuator .dollar, .name name] := by
  rw [Value.layout]
  rfl

theorem Value.tokens_int (digits : String) : (Value.int digits).layout.tokens = [.int digits] := by
  rw [Value.layout]
  rfl

theorem Value.tokens_float (digits : String) :
    (Value.float digits).layout.tokens = [.float digits] := by
  rw [Value.layout]
  rfl

theorem Value.tokens_string (literal : StringLiteral) :
    (Value.string literal).layout.tokens = [.string literal] := by
  rw [Value.layout, tokens_ofString]

/-- Truth values are spelled as names. -/
theorem Value.tokens_boolean (value : Bool) :
    (Value.boolean value).layout.tokens = [.name (if value then "true" else "false")] := by
  cases value <;>
    · rw [Value.layout]
      rfl

theorem Value.tokens_null : Value.null.layout.tokens = [.name "null"] := by
  rw [Value.layout]
  rfl

theorem Value.tokens_enum (symbol : String) :
    (Value.enum symbol).layout.tokens = [.name symbol] := by
  rw [Value.layout]
  rfl

/-- A value has a token at least, so a block of values is never laid out as empty. -/
theorem Value.tokens_ne_nil (v : Value) : v.layout.tokens ≠ [] := by
  cases v with
  | «variable» name => exact tokens_variable name ▸ List.cons_ne_nil _ _
  | int digits => exact tokens_int digits ▸ List.cons_ne_nil _ _
  | float digits => exact tokens_float digits ▸ List.cons_ne_nil _ _
  | string literal => exact tokens_string literal ▸ List.cons_ne_nil _ _
  | boolean value => exact tokens_boolean value ▸ List.cons_ne_nil _ _
  | null => exact tokens_null ▸ List.cons_ne_nil _ _
  | enum symbol => exact tokens_enum symbol ▸ List.cons_ne_nil _ _
  | list items => exact tokens_list items ▸ List.cons_ne_nil _ _
  | object fields => exact tokens_object fields ▸ List.cons_ne_nil _ _

/-- None of the layouts of items is without tokens. -/
theorem forall_tokens_ne_nil {α : Type} {f : α → Layout} (h : ∀ a, (f a).tokens ≠ [])
    (items : List α) : ∀ part ∈ items.map f, part.tokens ≠ [] := by
  intro part hpart
  obtain ⟨a, -, rfl⟩ := List.mem_map.mp hpart
  exact h a

theorem Argument.tokens_layout (a : Argument) :
    a.layout.tokens = .name a.name :: .punctuator .colon :: a.value.layout.tokens := by
  rw [Argument.layout, tokens_append]
  rfl

theorem Argument.tokens_ne_nil (a : Argument) : a.layout.tokens ≠ [] :=
  a.tokens_layout ▸ List.cons_ne_nil _ _

/-- The arguments of a directive are spelled with their marks if there are any. -/
theorem Directive.tokens_layout (d : Directive) : d.layout.tokens = .punctuator .atSign ::
    .name d.name :: enclosed .parenOpen .parenClose (d.arguments.map fun a => a.layout.tokens) := by
  rw [Directive.layout, tokens_append,
    tokens_parenthesized (forall_tokens_ne_nil Argument.tokens_ne_nil _), List.map_map]
  rfl

/-- The spaces between directives are no tokens. -/
theorem tokens_directives (directives : List Directive) :
    (directivesLayout directives).tokens = directives.flatMap fun d => d.layout.tokens := by
  rw [directivesLayout, tokens_spaced, List.flatMap_map]

/-- The token of a required type. -/
def requiredToken (required : Bool) : List Token := if required then [.punctuator .bang] else []

theorem tokens_requiredMark (required : Bool) :
    (requiredMark required).tokens = requiredToken required := by
  cases required <;> rfl

theorem TypeRef.tokens_named (name : String) (required : Bool) :
    (TypeRef.named name required).layout.tokens = .name name :: requiredToken required := by
  rw [TypeRef.layout, tokens_append, tokens_requiredMark]
  rfl

/-- A list type is spelled in brackets, whether it is required or not. -/
theorem TypeRef.tokens_list (item : TypeRef) (required : Bool) :
    (TypeRef.list item required).layout.tokens = .punctuator .bracketOpen ::
      (item.layout.tokens ++ .punctuator .bracketClose :: requiredToken required) := by
  rw [TypeRef.layout, tokens_append, tokens_append, tokens_append, tokens_requiredMark,
    List.append_assoc, List.append_assoc]
  rfl

/-- The tokens of a default value. -/
def defaultTokens : Option Value → List Token
  | none => []
  | some v => .punctuator .equals :: v.layout.tokens

theorem tokens_default (default? : Option Value) :
    (defaultLayout default?).tokens = defaultTokens default? := by
  cases default? with
  | none => rfl
  | some v =>
    show (wrap _ v.layout).tokens = _
    rw [tokens_wrap (ne_nil_of_tokens v.tokens_ne_nil)]
    exact List.append_nil _

/-- A layout with blanks around it has the same tokens, be it empty or not. -/
theorem tokens_wrap_blank {before body after : Layout} (hbefore : before.tokens = [])
    (hafter : after.tokens = []) : (wrap before body after).tokens = body.tokens := by
  cases body with
  | nil => rfl
  | cons p body =>
    rw [tokens_wrap (List.cons_ne_nil p body), hbefore, hafter, List.append_nil, List.nil_append]

/-- A space in front is no token. -/
theorem tokens_behind_space (body : Layout) : (wrap [Piece.space] body).tokens = body.tokens :=
  tokens_wrap_blank rfl rfl

/-! ## Parts of type definitions -/

/-- The token of a description. -/
def descriptionTokens (description : Option StringLiteral) : List Token :=
  description.toList.map .string

/-- The line end behind a description is no token. -/
theorem tokens_description (description : Option StringLiteral) :
    (descriptionLayout description).tokens = descriptionTokens description := by
  cases description with
  | none => rfl
  | some literal =>
    show Layout.tokens ([Piece.ofString literal] ++ newline) = _
    rw [tokens_append, tokens_ofString]
    rfl

theorem InputValueDef.tokens_layout (v : InputValueDef) :
    v.layout.tokens = descriptionTokens v.description ++ .name v.name :: .punctuator .colon ::
      (v.type.layout.tokens ++ (defaultTokens v.default? ++
        v.directives.flatMap fun d => d.layout.tokens)) := by
  rw [InputValueDef.layout, tokens_append, tokens_description, tokens_spaced, List.flatMap_cons,
    List.flatMap_cons, List.flatMap_cons, List.flatMap_nil, tokens_append, tokens_default,
    tokens_directives, List.append_nil]
  rfl

theorem InputValueDef.tokens_ne_nil (v : InputValueDef) : v.layout.tokens ≠ [] := by
  rw [v.tokens_layout]
  exact List.append_ne_nil_of_right_ne_nil _ (List.cons_ne_nil _ _)

/-- The tokens of the arguments of a definition. -/
def argumentDefsTokens (arguments : List InputValueDef) : List Token :=
  enclosed .parenOpen .parenClose (arguments.map fun v => v.layout.tokens)

/-- Arguments are spelled alike on one line and on several. -/
theorem tokens_argumentDefs (arguments : List InputValueDef) :
    (argumentDefsLayout arguments).tokens = argumentDefsTokens arguments := by
  have hne := forall_tokens_ne_nil InputValueDef.tokens_ne_nil arguments
  -- on one line or on several, the tokens are the same
  unfold argumentDefsLayout
  dsimp only
  split
  · rw [tokens_onLines _ _ hne, List.map_map]
    rfl
  · rw [tokens_parenthesized hne, List.map_map]
    rfl

/-- A field is spelled part by part, in the order of its layout. -/
theorem FieldDef.tokens_layout (f : FieldDef) :
    f.layout.tokens = descriptionTokens f.description ++ .name f.name ::
      (argumentDefsTokens f.arguments ++ .punctuator .colon ::
        (f.type.layout.tokens ++ f.directives.flatMap fun d => d.layout.tokens)) := by
  simp only [FieldDef.layout, tokens_append, tokens_description, tokens_argumentDefs,
    tokens_behind_space, tokens_directives, List.append_assoc]
  rfl

theorem EnumValueDef.tokens_layout (v : EnumValueDef) :
    v.layout.tokens = descriptionTokens v.description ++ .name v.name ::
      v.directives.flatMap fun d => d.layout.tokens := by
  rw [EnumValueDef.layout, tokens_append, tokens_description, tokens_spaced, List.flatMap_cons,
    List.flatMap_cons, List.flatMap_nil, tokens_directives, List.append_nil]
  rfl

theorem RootType.tokens_layout (r : RootType) :
    r.layout.tokens = [.name r.operation.keyword, .punctuator .colon, .name r.type] := rfl

theorem RootType.tokens_ne_nil (r : RootType) : r.layout.tokens ≠ [] :=
  r.tokens_layout ▸ List.cons_ne_nil _ _

/-- The tokens of names with a mark between them. -/
def namesTokens (separator : Punctuator) : List String → List Token
  | [] => []
  | first :: others =>
    .name first :: others.flatMap fun name => [.punctuator separator, .name name]

theorem tokens_names (separator : Punctuator) (names : List String) :
    (namesLayout separator names).tokens = namesTokens separator names := by
  have hfilter : (names.map word).filter (!·.isEmpty) = names.map word := by
    rw [List.filter_eq_self]
    intro part hpart
    obtain ⟨name, -, rfl⟩ := List.mem_map.mp hpart
    rfl
  rw [namesLayout, join, hfilter]
  clear hfilter
  induction names with
  | nil => rfl
  | cons first others ih =>
    cases others with
    | nil => rfl
    | cons second others =>
      rw [List.map_cons, List.map_cons, List.intercalate_cons_cons, tokens_append, tokens_append,
        ← List.map_cons, ih]
      rfl

/-- The tokens of the interfaces of a type. -/
def interfacesTokens (interfaces : List String) : List Token :=
  if interfaces.isEmpty then [] else .name "implements" :: namesTokens .amp interfaces

/-- The tokens of the members of a union. -/
def membersTokens (members : List String) : List Token :=
  if members.isEmpty then [] else .punctuator .equals :: namesTokens .pipe members

/-- The tokens of what stands in braces. -/
def blockTokens {α : Type} (spell : α → List Token) (items : List α) : List Token :=
  enclosed .braceOpen .braceClose (items.map spell)

/-- A keyword in front of names is spelled only if there are names. -/
theorem tokens_introduced_names (t : Token) (separator : Punctuator) (names : List String) :
    (wrap ([Piece.token t] ++ [Piece.space]) (namesLayout separator names)).tokens
      = if names.isEmpty then [] else t :: namesTokens separator names := by
  cases names with
  | nil => rfl
  | cons first others =>
    have hne : namesLayout separator (first :: others) ≠ [] := by
      apply ne_nil_of_tokens
      rw [tokens_names]
      exact List.cons_ne_nil _ _
    rw [tokens_wrap hne, tokens_names]
    exact List.append_nil _

/-- A block of items that have tokens has braces exactly if there are items. -/
theorem tokens_blockOf {α : Type} {f : α → Layout} (h : ∀ a, (f a).tokens ≠ []) (items : List α) :
    (Layout.block (items.map f)).tokens = blockTokens (fun a => (f a).tokens) items := by
  rw [tokens_block (forall_tokens_ne_nil h items), List.map_map]
  rfl

theorem FieldDef.tokens_ne_nil (f : FieldDef) : f.layout.tokens ≠ [] := by
  rw [f.tokens_layout]
  exact List.append_ne_nil_of_right_ne_nil _ (List.cons_ne_nil _ _)

theorem EnumValueDef.tokens_ne_nil (v : EnumValueDef) : v.layout.tokens ≠ [] := by
  rw [v.tokens_layout]
  exact List.append_ne_nil_of_right_ne_nil _ (List.cons_ne_nil _ _)

theorem DirectiveDef.tokens_layout (d : DirectiveDef) :
    d.layout.tokens = descriptionTokens d.description ++ .name "directive" :: .punctuator .atSign ::
      .name d.name :: (argumentDefsTokens d.arguments ++
        ((if d.repeatable then [.name "repeatable"] else []) ++
          .name "on" :: namesTokens .pipe (d.locations.map (·.name)))) := by
  have hrepeatable : Layout.tokens (if d.repeatable then .space :: word "repeatable" else [])
      = if d.repeatable then [.name "repeatable"] else [] := by
    cases d.repeatable <;> rfl
  simp only [DirectiveDef.layout, tokens_append, tokens_description, tokens_argumentDefs,
    tokens_names, hrepeatable, List.append_assoc]
  rfl

/-- The tokens of a type block behind its name. -/
def bodyTokens (directives : List Directive) : TypeBody → List Token
  | .scalar => directives.flatMap fun d => d.layout.tokens
  | .object interfaces fields =>
    interfacesTokens interfaces ++ (directives.flatMap (fun d => d.layout.tokens) ++
      blockTokens (fun f => f.layout.tokens) fields)
  | .interface interfaces fields =>
    interfacesTokens interfaces ++ (directives.flatMap (fun d => d.layout.tokens) ++
      blockTokens (fun f => f.layout.tokens) fields)
  | .union members => directives.flatMap (fun d => d.layout.tokens) ++ membersTokens members
  | .enum values =>
    directives.flatMap (fun d => d.layout.tokens) ++ blockTokens (fun v => v.layout.tokens) values
  | .input fields =>
    directives.flatMap (fun d => d.layout.tokens) ++ blockTokens (fun v => v.layout.tokens) fields

/-- The keyword of a type block. -/
def TypeBody.keyword : TypeBody → String
  | .scalar => "scalar"
  | .object _ _ => "type"
  | .interface _ _ => "interface"
  | .union _ => "union"
  | .enum _ => "enum"
  | .input _ => "input"

/-- A type block starts with its keyword and its name, whatever its kind. -/
theorem TypeDecl.tokens_layout (decl : TypeDecl) : decl.layout.tokens =
    .name decl.body.keyword :: .name decl.name :: bodyTokens decl.directives decl.body := by
  obtain ⟨name, directives, body⟩ := decl
  unfold TypeDecl.layout
  cases body <;>
    · simp only [tokens_spaced, List.flatMap_cons, List.flatMap_nil, tokens_directives,
        tokens_blockOf FieldDef.tokens_ne_nil, tokens_blockOf EnumValueDef.tokens_ne_nil,
        tokens_blockOf InputValueDef.tokens_ne_nil, interfacesLayout, List.append_nil]
      first
      | rfl
      | (simp only [word, mark, tokens_introduced_names]; rfl)

/-- The tokens of a schema block behind its keyword. -/
def schemaTokens (directives : List Directive) (roots : List RootType) : List Token :=
  directives.flatMap (fun d => d.layout.tokens) ++ blockTokens (fun r => r.layout.tokens) roots

theorem tokens_schema (directives : List Directive) (roots : List RootType) :
    (schemaLayout directives roots).tokens = .name "schema" :: schemaTokens directives roots := by
  rw [schemaLayout, tokens_spaced, List.flatMap_cons, List.flatMap_cons, List.flatMap_cons,
    List.flatMap_nil, tokens_directives, tokens_blockOf RootType.tokens_ne_nil, List.append_nil]
  rfl

/-! ## Executable definitions -/

/-- The tokens of the name of a selected field. -/
def labelTokens (alias? : Option String) (name : String) : List Token :=
  match alias? with
  | some label => [.name label, .punctuator .colon, .name name]
  | none => [.name name]

/-- The tokens of the arguments that a value is given. -/
def argumentsTokens (arguments : List Argument) : List Token :=
  enclosed .parenOpen .parenClose (arguments.map fun a => a.layout.tokens)

/-- The arguments of a selected field are spelled alike on one line and on several. -/
theorem tokens_selectedField (alias? : Option String) (name : String) (arguments : List Argument) :
    (selectedFieldLayout alias? name arguments).tokens
      = labelTokens alias? name ++ argumentsTokens arguments := by
  have hne := forall_tokens_ne_nil Argument.tokens_ne_nil arguments
  have hbody : ∀ head : Layout, Layout.tokens
      (if widestSelection
          < (head ++ parenthesized (arguments.map Argument.layout)).render.length
        then head ++ onLines .parenOpen .parenClose (arguments.map Argument.layout)
        else head ++ parenthesized (arguments.map Argument.layout))
      = head.tokens ++ argumentsTokens arguments := by
    intro head
    split
    · rw [tokens_append, tokens_onLines _ _ hne, List.map_map]
      rfl
    · rw [tokens_append, tokens_parenthesized hne, List.map_map]
      rfl
  cases alias? with
  | none => exact hbody _
  | some label => exact hbody _

theorem Selection.tokens_ne_nil (s : Selection) : s.layout.tokens ≠ [] := by
  cases s with
  | field alias? name arguments directives selections =>
    rw [Selection.layout, tokens_spaced, List.flatMap_cons, tokens_selectedField]
    cases alias? <;> exact List.cons_ne_nil _ _
  | spread fragment directives =>
    rw [Selection.layout, tokens_append]
    exact List.cons_ne_nil _ _
  | inline on? directives selections =>
    rw [Selection.layout, tokens_spaced]
    exact List.cons_ne_nil _ _

/-- The tokens of a selection set. -/
def selectionsTokens (selections : List Selection) : List Token :=
  blockTokens (fun s => s.layout.tokens) selections

theorem tokens_selections (selections : List Selection) :
    (selectionsLayout selections).tokens = selectionsTokens selections :=
  tokens_blockOf Selection.tokens_ne_nil selections

theorem Selection.tokens_field (alias? : Option String) (name : String) (arguments : List Argument)
    (directives : List Directive) (selections : List Selection) :
    (Selection.field alias? name arguments directives selections).layout.tokens
      = labelTokens alias? name ++ (argumentsTokens arguments ++
        (directives.flatMap (fun d => d.layout.tokens) ++ selectionsTokens selections)) := by
  rw [Selection.layout, tokens_spaced, List.flatMap_cons, List.flatMap_cons, List.flatMap_cons,
    List.flatMap_nil, tokens_selectedField, tokens_directives,
    tokens_blockOf Selection.tokens_ne_nil, List.append_nil, List.append_assoc]
  rfl

theorem Selection.tokens_spread (fragment : String) (directives : List Directive) :
    (Selection.spread fragment directives).layout.tokens = .punctuator .spread :: .name fragment ::
      directives.flatMap fun d => d.layout.tokens := by
  rw [Selection.layout, tokens_append, tokens_behind_space, tokens_directives]
  rfl

/-- The tokens of the type that an inline fragment asks for. -/
def conditionTokens : Option String → List Token
  | none => []
  | some on => [.name "on", .name on]

theorem Selection.tokens_inline (on? : Option String) (directives : List Directive)
    (selections : List Selection) :
    (Selection.inline on? directives selections).layout.tokens = .punctuator .spread ::
      (conditionTokens on? ++
        (directives.flatMap (fun d => d.layout.tokens) ++ selectionsTokens selections)) := by
  rw [Selection.layout, tokens_spaced, List.flatMap_cons, List.flatMap_cons, List.flatMap_cons,
    List.flatMap_cons, List.flatMap_nil, tokens_directives,
    tokens_blockOf Selection.tokens_ne_nil, List.append_nil]
  cases on? <;> rfl

theorem VariableDef.tokens_layout (v : VariableDef) :
    v.layout.tokens = .punctuator .dollar :: .name v.name :: .punctuator .colon ::
      (v.type.layout.tokens ++ (defaultTokens v.default? ++
        v.directives.flatMap fun d => d.layout.tokens)) := by
  simp only [VariableDef.layout, tokens_append, tokens_behind_space, tokens_default,
    tokens_directives, List.append_assoc]
  rfl

/-- The tokens of the variables that an operation declares. -/
def variableDefsTokens (declared : List VariableDef) : List Token :=
  enclosed .parenOpen .parenClose (declared.map fun v => v.layout.tokens)

theorem VariableDef.tokens_ne_nil (v : VariableDef) : v.layout.tokens ≠ [] :=
  v.tokens_layout ▸ List.cons_ne_nil _ _

theorem tokens_variableDefs (declared : List VariableDef) :
    (parenthesized (declared.map VariableDef.layout)).tokens = variableDefsTokens declared := by
  rw [tokens_parenthesized (forall_tokens_ne_nil VariableDef.tokens_ne_nil declared), List.map_map]
  rfl

/-- Whether an operation is written as its selection set alone. -/
def Operation.isShorthand (o : Operation) : Bool :=
  o.kind = .query && o.name?.isNone && o.variableDefs.isEmpty && o.directives.isEmpty

/-- A query with nothing in front of its selections is spelled as these. -/
theorem Operation.tokens_shorthand {o : Operation} (h : o.isShorthand = true) :
    o.layout.tokens = selectionsTokens o.selections := by
  obtain ⟨kind, name?, declared, directives, selections⟩ := o
  simp only [isShorthand, Bool.and_eq_true, decide_eq_true_eq, Option.isNone_iff_eq_none,
    List.isEmpty_iff] at h
  obtain ⟨⟨⟨rfl, rfl⟩, rfl⟩, rfl⟩ := h
  exact tokens_selections selections

/-- Directives are laid out as nothing only if there are none. -/
theorem directivesLayout_eq_nil {directives : List Directive} (h : directivesLayout directives = []) :
    directives = [] := by
  have htokens := tokens_directives directives
  rw [h] at htokens
  cases directives with
  | nil => rfl
  | cons d directives =>
    rw [List.flatMap_cons, d.tokens_layout] at htokens
    cases htokens

theorem variableDefs_eq_nil {declared : List VariableDef}
    (h : parenthesized (declared.map VariableDef.layout) = []) : declared = [] := by
  have htokens := tokens_variableDefs declared
  rw [h] at htokens
  cases declared with
  | nil => rfl
  | cons v declared => cases htokens

/-- An operation that is not a selection set alone starts with its keyword. -/
theorem Operation.tokens_full {o : Operation} (h : o.isShorthand = false) :
    o.layout.tokens = .name o.kind.keyword :: (o.name?.toList.map .name ++
      (variableDefsTokens o.variableDefs ++ (o.directives.flatMap (fun d => d.layout.tokens) ++
        selectionsTokens o.selections))) := by
  -- the printer looks at the layouts of the parts, `isShorthand` at the parts themselves
  have hfull : ¬ (o.kind = .query && ((o.name?.map word).getD []
      ++ parenthesized (o.variableDefs.map VariableDef.layout)).isEmpty
      && (directivesLayout o.directives).isEmpty) = true := by
    intro hshort
    simp only [Bool.and_eq_true, decide_eq_true_eq, List.isEmpty_iff, List.append_eq_nil_iff] at hshort
    obtain ⟨⟨hkind, hname, hvariables⟩, hdirectives⟩ := hshort
    have hname : o.name? = none := by
      cases hname' : o.name? with
      | none => rfl
      | some name =>
        rw [hname'] at hname
        cases hname
    rw [isShorthand, hkind, hname, variableDefs_eq_nil hvariables,
      directivesLayout_eq_nil hdirectives] at h
    cases h
  have hname : Layout.tokens ((o.name?.map word).getD []) = o.name?.toList.map .name := by
    cases o.name? <;> rfl
  unfold Operation.layout
  dsimp only
  rw [if_neg hfull]
  simp only [tokens_append, tokens_spaced, List.flatMap_cons, List.flatMap_nil, hname,
    tokens_variableDefs, tokens_directives, tokens_selections, List.append_nil, List.append_assoc]
  rfl

theorem Fragment.tokens_layout (f : Fragment) :
    f.layout.tokens = .name "fragment" :: .name f.name :: .name "on" :: .name f.on ::
      (f.directives.flatMap (fun d => d.layout.tokens) ++ selectionsTokens f.selections) := by
  simp only [Fragment.layout, tokens_append, tokens_selections]
  rw [tokens_wrap_blank rfl rfl, tokens_directives]
  rfl

/-! ## Documents -/

/-- The empty lines between definitions are no tokens. -/
theorem Document.tokens_layout (d : Document) :
    d.layout.tokens = d.definitions.flatMap fun definition => definition.layout.tokens := by
  rw [Document.layout, tokens_join rfl, List.flatMap_map]

end ResolverWiring.Graphql
