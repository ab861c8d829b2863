import ResolverWiring.Graphql.Printer
import ResolverWiring.Proofs.Graphql.Layout

/-!
# `Proofs.Graphql.Printer` — the layouts of documents are legible

Every node has a legible layout, whatever names and texts it holds, and the tokens of the layout are those of
its parts in order: line breaks, and the choice between one line and several, leave no trace in them.
`Document.tokens_print` is the consequence for a whole document.
-/

namespace ResolverWiring.Graphql

open Layout

/-! ## Values, directives and type references -/

/-- Induction on values: on the items of a list, and on what the fields of an object hold. -/
@[induction_eliminator]
theorem Value.induction {motive : Value → Prop} («variable» : ∀ name, motive (.variable name))
    (int : ∀ digits, motive (.int digits)) (float : ∀ digits, motive (.float digits))
    (string : ∀ literal, motive (.string literal)) (boolean : ∀ value, motive (.boolean value))
    (null : motive .null) (enum : ∀ symbol, motive (.enum symbol))
    (list : ∀ items, (∀ item ∈ items, motive item) → motive (.list items))
    (object : ∀ fields, (∀ field ∈ fields, motive field.2) → motive (.object fields)) (value : Value) :
    motive value := by
  cases value with
  | «variable» name => exact «variable» name
  | int digits => exact int digits
  | float digits => exact float digits
  | string literal => exact string literal
  | boolean value => exact boolean value
  | null => exact null
  | enum symbol => exact enum symbol
  | list items =>
    have hitems : ∀ item ∈ items, motive item := fun item hitem =>
      Value.induction «variable» int float string boolean null enum list object item
    exact list items hitems
  | object fields =>
    have hfields : ∀ field ∈ fields, motive field.2 := fun field hfield =>
      Value.induction «variable» int float string boolean null enum list object field.2
    exact object fields hfields
termination_by sizeOf value
decreasing_by
  · have := List.sizeOf_lt_of_mem hitem
    simp only [Value.list.sizeOf_spec]
    omega
  · have := List.sizeOf_lt_of_mem hfield
    cases field
    simp only [Value.object.sizeOf_spec, Prod.mk.sizeOf_spec] at *
    omega

/-- The layout of a field of an object value. -/
def objectFieldLayout (field : String × Value) : Layout :=
  word field.1 ++ mark .colon ++ [Piece.space] ++ field.2.layout

/-- The fields of an object are laid out one by one between braces. -/
theorem Value.layout_object (fields : List (String × Value)) :
    (Value.object fields).layout
      = mark .braceOpen ++ join [.comma] (fields.map objectFieldLayout) ++ mark .braceClose := by
  have hfields := List.attach_map_val (l := fields) (f := objectFieldLayout)
  rw [Value.layout, ← hfields]
  rfl

/-- A name with a colon and what stands behind it. -/
theorem legible_named (name : String) {body : Layout} (h : body.Legible) :
    (word name ++ mark .colon ++ [Piece.space] ++ body).Legible :=
  (((legible_single _).append (legible_single _) (.inr (startsApart_cons rfl))).append
    (legible_single _) (.inr (startsApart_cons rfl))).append h (.inl (endsFree_concat rfl))

/-- Commas keep apart whatever stands on both sides of them. -/
theorem legible_commas {parts : List Layout} (h : ∀ part ∈ parts, part.Legible) :
    (join [.comma] parts).Legible :=
  (legible_single .comma).join (List.cons_ne_nil _ _) (endsFree_single rfl)
    (startsApart_cons rfl) h

/-- A layout between two marks. -/
theorem legible_between (opening : Punctuator) {body : Layout} (h : body.Legible)
    {closing : Punctuator} (hclosing : closing ≠ .spread) :
    (mark opening ++ body ++ mark closing).Legible :=
  ((legible_single _).append h (.inl (endsFree_single rfl))).append (legible_single _)
    (.inr (startsApart_cons (by simpa [Piece.isApart] using hclosing)))

/-- Values, by induction: marks and commas stand between all their parts. -/
theorem Value.legible (v : Value) : v.layout.Legible := by
  induction v with
  | «variable» name =>
    rw [Value.layout]
    exact (legible_single _).cons (.inl rfl)
  | boolean value =>
    cases value <;>
      · rw [Value.layout]
        exact legible_single _
  | list items ih =>
    rw [Value.layout]
    refine legible_between _ (legible_commas fun part hpart => ?_) (by decide)
    obtain ⟨item, hitem, rfl⟩ := List.mem_map.mp hpart
    exact ih item hitem
  | object fields ih =>
    rw [Value.layout_object]
    refine legible_between _ (legible_commas fun part hpart => ?_) (by decide)
    obtain ⟨field, hfield, rfl⟩ := List.mem_map.mp hpart
    exact legible_named field.1 (ih field hfield)
  | _ =>
    rw [Value.layout]
    exact legible_single _

/-- If everything of a kind is legible, so is every layout in a list of them. -/
theorem legible_of_map {α : Type} {f : α → Layout} (h : ∀ a, (f a).Legible) (items : List α) :
    ∀ part ∈ items.map f, part.Legible := by
  intro part hpart
  obtain ⟨a, -, rfl⟩ := List.mem_map.mp hpart
  exact h a

/-- The colon keeps the name of an argument from its value. -/
theorem Argument.legible (a : Argument) : a.layout.Legible := legible_named a.name a.value.legible

/-- The name of a directive stands right behind its mark, which is no part of a name. -/
theorem Directive.legible (d : Directive) : d.layout.Legible :=
  ((legible_single _).append (legible_single _) (.inl (endsFree_single rfl))).append
    (Legible.parenthesized (legible_of_map Argument.legible d.arguments))
    (.inr (startsApart_parenthesized _))

theorem legible_directives (directives : List Directive) : (directivesLayout directives).Legible :=
  Legible.spaced (legible_of_map Directive.legible directives)

/-- The mark of a required type can stand right behind a name. -/
theorem startsApart_requiredMark (required : Bool) : (requiredMark required).StartsApart := by
  cases required
  · exact startsApart_nil
  · exact startsApart_cons rfl

theorem legible_requiredMark (required : Bool) : (requiredMark required).Legible := by
  cases required
  · exact legible_nil
  · exact legible_single _

/-- References to types, by induction on them. -/
theorem TypeRef.legible (type : TypeRef) : type.layout.Legible := by
  induction type with
  | named name required =>
    exact (legible_single _).append (legible_requiredMark required)
      (.inr (startsApart_requiredMark required))
  | list item required ih =>
    exact (legible_between .bracketOpen ih (by decide)).append (legible_requiredMark required)
      (.inr (startsApart_requiredMark required))

/-- What stands behind a space, if there is anything. -/
theorem legible_behind_space {body : Layout} (h : body.Legible) : (wrap [Piece.space] body).Legible :=
  Legible.wrap (legible_single _) h legible_nil (endsFree_single rfl) startsApart_nil

/-- What starts with a space is apart from anything in front of it. -/
theorem startsApart_behind_space (body : Layout) : (wrap [Piece.space] body).StartsApart :=
  StartsApart.wrap (startsApart_cons rfl) (List.cons_ne_nil _ _)

/-- What stands behind a word or a mark and a space, if there is anything. -/
theorem legible_introduced (t : Token) {body : Layout} (h : body.Legible) :
    (wrap ([Piece.token t] ++ [Piece.space]) body).Legible :=
  Legible.wrap ((legible_single _).append (legible_single _) (.inr (startsApart_cons rfl))) h
    legible_nil (endsFree_concat rfl) startsApart_nil

/-- A default stands behind its mark with spaces around. -/
theorem legible_default (default? : Option Value) : (defaultLayout default?).Legible := by
  refine legible_introduced _ ?_
  cases default? with
  | none => exact legible_nil
  | some v => exact v.legible

/-! ## Parts of type definitions -/

/-- A description is one literal with a line end behind it. -/
theorem legible_description (description : Option StringLiteral) :
    (descriptionLayout description).Legible := by
  cases description with
  | none => exact legible_nil
  | some literal => exact (legible_single _).cons (.inr (startsApart_cons rfl))

/-- Behind the line end of a description anything can stand. -/
theorem endsFree_description (description : Option StringLiteral) :
    (descriptionLayout description).EndsFree := by
  cases description with
  | none => exact endsFree_nil
  | some literal => exact endsFree_cons (endsFree_single rfl)

/-- A description is apart from what it describes. -/
theorem legible_described (description : Option StringLiteral) {body : Layout} (h : body.Legible) :
    (descriptionLayout description ++ body).Legible :=
  (legible_description description).append h (.inl (endsFree_description description))

theorem InputValueDef.legible (v : InputValueDef) : v.layout.Legible :=
  legible_described v.description <| Legible.spaced <|
    forall_legible_cons (legible_named v.name v.type.legible) <|
    forall_legible_cons (legible_default v.default?) <|
    forall_legible_single (legible_directives v.directives)

/-- The arguments of a field stand on one line or on several; both ways are legible. -/
theorem legible_argumentDefs (arguments : List InputValueDef) :
    (argumentDefsLayout arguments).Legible := by
  have h := legible_of_map InputValueDef.legible arguments
  unfold argumentDefsLayout
  dsimp only
  split
  · exact Legible.onLines _ _ h
  · exact Legible.parenthesized h

/-- Arguments start with a mark, so they can stand right behind a name. -/
theorem startsApart_argumentDefs (arguments : List InputValueDef) :
    (argumentDefsLayout arguments).StartsApart := by
  unfold argumentDefsLayout
  dsimp only
  split
  · exact startsApart_onLines (by decide) _ _
  · exact startsApart_parenthesized _

/-- A field, part by part: its name, its arguments, its type and its directives. -/
theorem FieldDef.legible (f : FieldDef) : f.layout.Legible := by
  have hname := legible_described f.description (legible_single (.token (.name f.name)))
  have harguments := hname.append (legible_argumentDefs f.arguments)
    (.inr (startsApart_argumentDefs f.arguments))
  have hcolon := (harguments.append (legible_single (.token (.punctuator .colon)))
    (.inr (startsApart_cons rfl))).append (legible_single .space) (.inr (startsApart_cons rfl))
  exact (hcolon.append f.type.legible (.inl (endsFree_concat rfl))).append
    (legible_behind_space (legible_directives f.directives)) (.inr (startsApart_behind_space _))

theorem EnumValueDef.legible (v : EnumValueDef) : v.layout.Legible :=
  legible_described v.description <| Legible.spaced <|
    forall_legible_cons (legible_single _) <|
    forall_legible_single (legible_directives v.directives)

theorem RootType.legible (r : RootType) : r.layout.Legible :=
  legible_named _ (legible_single _)

/-- Names with a mark and spaces between them. -/
theorem legible_names {separator : Punctuator} (h : separator ≠ .spread) (names : List String) :
    (namesLayout separator names).Legible := by
  have hspace : (mark separator).StartsApart := startsApart_cons (by simpa [Piece.isApart] using h)
  have hseparator : Legible ([Piece.space] ++ mark separator ++ [Piece.space]) :=
    ((legible_single _).append (legible_single _) (.inr hspace)).append (legible_single _)
      (.inr (startsApart_cons rfl))
  exact hseparator.join (List.cons_ne_nil _ _) (endsFree_concat rfl) (startsApart_cons rfl)
    (legible_of_map (fun name => legible_single _) names)

theorem legible_interfaces (interfaces : List String) : (interfacesLayout interfaces).Legible :=
  legible_introduced _ (legible_names (by decide) interfaces)

/-- The items of a block stand on lines of their own. -/
theorem legible_block {α : Type} {f : α → Layout} (h : ∀ a, (f a).Legible) (items : List α) :
    (Layout.block (items.map f)).Legible :=
  Legible.block (legible_of_map h items)

/-- A keyword, the name of a type and what belongs to the type, with spaces between them. -/
theorem legible_declared (keyword name : String) {parts : List Layout}
    (h : ∀ part ∈ parts, part.Legible) : (spaced (word keyword :: word name :: parts)).Legible :=
  Legible.spaced (forall_legible_cons (legible_single _) (forall_legible_cons (legible_single _) h))

/-- Type blocks, one case for each keyword. -/
theorem TypeDecl.legible (decl : TypeDecl) : decl.layout.Legible := by
  obtain ⟨name, directives, body⟩ := decl
  have hdirectives := legible_directives directives
  unfold TypeDecl.layout
  cases body with
  | scalar => exact legible_declared _ name (forall_legible_single hdirectives)
  | object interfaces fields =>
    exact legible_declared _ name <| forall_legible_cons (legible_interfaces interfaces) <|
      forall_legible_cons hdirectives <|
      forall_legible_single (legible_block FieldDef.legible fields)
  | interface interfaces fields =>
    exact legible_declared _ name <| forall_legible_cons (legible_interfaces interfaces) <|
      forall_legible_cons hdirectives <|
      forall_legible_single (legible_block FieldDef.legible fields)
  | union members =>
    exact legible_declared _ name <| forall_legible_cons hdirectives <|
      forall_legible_single (legible_introduced _ (legible_names (by decide) members))
  | enum values =>
    exact legible_declared _ name <| forall_legible_cons hdirectives <|
      forall_legible_single (legible_block EnumValueDef.legible values)
  | input fields =>
    exact legible_declared _ name <| forall_legible_cons hdirectives <|
      forall_legible_single (legible_block InputValueDef.legible fields)

theorem legible_schema (directives : List Directive) (roots : List RootType) :
    (schemaLayout directives roots).Legible :=
  Legible.spaced <| forall_legible_cons (legible_single _) <|
    forall_legible_cons (legible_directives directives) <|
    forall_legible_single (legible_block RootType.legible roots)

/-- A layout with a space and another layout behind it. -/
theorem legible_then {before after : Layout} (hbefore : before.Legible) (hafter : after.Legible) :
    (before ++ [Piece.space] ++ after).Legible :=
  (hbefore.append (legible_single _) (.inr (startsApart_cons rfl))).append hafter
    (.inl (endsFree_concat rfl))

/-- The places of a directive are names with a mark between them. -/
theorem DirectiveDef.legible (d : DirectiveDef) : d.layout.Legible := by
  -- part after part, from the left: each one that is added starts apart or stands behind a free one
  have hkeyword := legible_described d.description (legible_single (.token (.name "directive")))
  have hmark := legible_then hkeyword (legible_single (.token (.punctuator .atSign)))
  have hname := hmark.append (legible_single (.token (.name d.name))) (.inl (endsFree_concat rfl))
  have harguments := hname.append (legible_argumentDefs d.arguments)
    (.inr (startsApart_argumentDefs d.arguments))
  have hrepeatable : Legible (if d.repeatable then .space :: word "repeatable" else []) ∧
      StartsApart (if d.repeatable then .space :: word "repeatable" else []) := by
    cases d.repeatable
    · exact ⟨legible_nil, startsApart_nil⟩
    · exact ⟨(legible_single _).cons (.inl rfl), startsApart_cons rfl⟩
  have hflag := harguments.append hrepeatable.1 (.inr hrepeatable.2)
  exact legible_then (legible_then hflag (legible_single _)) (legible_names (by decide) _)

/-! ## Executable definitions -/

/-- The arguments of a selected field stand on one line or on several, as those of a field definition do. -/
theorem legible_selectedField (alias? : Option String) (name : String) (arguments : List Argument) :
    (selectedFieldLayout alias? name arguments).Legible := by
  have harguments := legible_of_map Argument.legible arguments
  have hbody : ∀ head : Layout, head.Legible → Legible
      (if widestSelection
          < (head ++ parenthesized (arguments.map Argument.layout)).render.length
        then head ++ onLines .parenOpen .parenClose (arguments.map Argument.layout)
        else head ++ parenthesized (arguments.map Argument.layout)) := by
    intro head hhead
    split
    · exact hhead.append (Legible.onLines _ _ harguments)
        (.inr (startsApart_onLines (by decide) _ _))
    · exact hhead.append (Legible.parenthesized harguments) (.inr (startsApart_parenthesized _))
  cases alias? with
  | none => exact hbody _ (legible_single _)
  | some label => exact hbody _ (legible_named label (legible_single _))

/-- Selections, by induction on them. -/
theorem Selection.legible (s : Selection) : s.layout.Legible := by
  cases s with
  | field alias? name arguments directives selections =>
    have hnested : ∀ part ∈ selections.map (fun item => item.layout), part.Legible := by
      intro part hpart
      obtain ⟨item, hitem, rfl⟩ := List.mem_map.mp hpart
      exact item.legible
    rw [Selection.layout]
    exact Legible.spaced <| forall_legible_cons (legible_selectedField alias? name arguments) <|
      forall_legible_cons (legible_directives directives) <|
      forall_legible_single (Legible.block hnested)
  | spread fragment directives =>
    rw [Selection.layout]
    exact ((legible_single _).append (legible_single _) (.inl (endsFree_single rfl))).append
      (legible_behind_space (legible_directives directives)) (.inr (startsApart_behind_space _))
  | inline on? directives selections =>
    have hnested : ∀ part ∈ selections.map (fun item => item.layout), part.Legible := by
      intro part hpart
      obtain ⟨item, hitem, rfl⟩ := List.mem_map.mp hpart
      exact item.legible
    have hcondition : Legible
        ((on?.map fun on => word "on" ++ [Piece.space] ++ word on).getD []) := by
      cases on? with
      | none => exact legible_nil
      | some on => exact legible_then (legible_single _) (legible_single _)
    rw [Selection.layout]
    exact Legible.spaced <| forall_legible_cons (legible_single _) <|
      forall_legible_cons hcondition <| forall_legible_cons (legible_directives directives) <|
      forall_legible_single (Legible.block hnested)

theorem legible_selections (selections : List Selection) :
    (selectionsLayout selections).Legible :=
  legible_block Selection.legible selections

theorem VariableDef.legible (v : VariableDef) : v.layout.Legible := by
  have hname : (mark .dollar ++ word v.name).Legible := (legible_single _).cons (.inl rfl)
  have htype := (((hname.append (legible_single (.token (.punctuator .colon)))
    (.inr (startsApart_cons rfl))).append (legible_single .space)
    (.inr (startsApart_cons rfl))).append v.type.legible (.inl (endsFree_concat rfl)))
  exact (htype.append (legible_behind_space (legible_default v.default?))
    (.inr (startsApart_behind_space _))).append
    (legible_behind_space (legible_directives v.directives)) (.inr (startsApart_behind_space _))

/-- A query that is only selections is printed without its keyword. -/
theorem Operation.legible (o : Operation) : o.layout.Legible := by
  have hname : Legible ((o.name?.map word).getD []
      ++ parenthesized (o.variableDefs.map VariableDef.layout)) := by
    refine Legible.append ?_ (Legible.parenthesized (legible_of_map VariableDef.legible _))
      (.inr (startsApart_parenthesized _))
    cases o.name? with
    | none => exact legible_nil
    | some name => exact legible_single _
  unfold Operation.layout
  dsimp only
  split
  · exact legible_selections o.selections
  · exact legible_then (Legible.spaced <| forall_legible_cons (legible_single _) <|
      forall_legible_cons hname <| forall_legible_single (legible_directives o.directives))
      (legible_selections o.selections)

theorem Fragment.legible (f : Fragment) : f.layout.Legible := by
  have hname := legible_then (legible_single (.token (.name "fragment")))
    (legible_single (.token (.name f.name)))
  have hcondition := legible_then (legible_then hname (legible_single (.token (.name "on"))))
    (legible_single (.token (.name f.on)))
  have hdirectives : (wrap [] (directivesLayout f.directives) [Piece.space]).Legible :=
    Legible.wrap legible_nil (legible_directives f.directives) (legible_single _) endsFree_nil
      (startsApart_cons rfl)
  exact (legible_then hcondition hdirectives).append (legible_selections f.selections)
    (.inr (startsApart_onLines (by decide) _ _))

/-! ## Documents -/

/-- Definitions, one case for each kind. -/
theorem Definition.legible (d : Definition) : d.layout.Legible := by
  cases d with
  | operation o => exact o.legible
  | fragment f => exact f.legible
  | schema description directives roots =>
    exact legible_described description (legible_schema directives roots)
  | type description decl => exact legible_described description decl.legible
  | directive d => exact d.legible
  | extendSchema directives roots =>
    exact legible_then (legible_single _) (legible_schema directives roots)
  | extendType decl => exact legible_then (legible_single _) decl.legible

/-- Definitions stand with an empty line between them. -/
theorem Document.legible (d : Document) : d.layout.Legible :=
  Legible.join ((legible_single _).cons (.inl rfl)) (List.cons_ne_nil _ _) (endsFree_concat rfl)
    (startsApart_cons rfl) (legible_of_map Definition.legible d.definitions)

/-- **A printed document is read as its tokens**, if they can be spelled at all. -/
theorem Document.tokens_print {d : Document} (h : ∀ t ∈ d.layout.tokens, t.WellFormed StringLiteral.IsRead) :
    tokens d.print.toList = d.layout.tokens ++ [.endOfInput] := by
  rw [Document.print, String.toList_ofList, tokens_render d.legible h]

end ResolverWiring.Graphql
