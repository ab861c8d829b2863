import ResolverWiring.Graphql.Layout

/-!
# `ResolverWiring.Graphql.Printer` — printing documents

The layout of every node, and the text of a document (`Document.print`).

Definitions are separated by a blank line. Fields, values and selections stand on lines of their own.
Arguments of a definition do so too when one of them takes several lines, and arguments of a selected
field when they do not fit in `widestSelection` characters. A description stands on its own line in
front of what it describes.
-/

namespace ResolverWiring.Graphql

open Layout

/-! ## Values, directives and type references -/

/-- The layout of a value. -/
def Value.layout : Value → Layout
  | .variable name => mark .dollar ++ word name
  | .int digits => [.token (.int digits)]
  | .float digits => [.token (.float digits)]
  | .string literal => [.ofString literal]
  | .boolean true => word "true"
  | .boolean false => word "false"
  | .null => word "null"
  | .enum symbol => word symbol
  | .list items =>
    mark .bracketOpen ++ join [.comma] (items.map fun item => item.layout) ++ mark .bracketClose
  | .object fields =>
    mark .braceOpen
      ++ join [.comma]
        (fields.attach.map fun ⟨field, _⟩ =>
          word field.1 ++ mark .colon ++ [.space] ++ field.2.layout)
      ++ mark .braceClose
termination_by v => sizeOf v
decreasing_by
  · decreasing_tactic
  · rename_i h
    have := List.sizeOf_lt_of_mem h
    cases field
    simp only [Value.object.sizeOf_spec, Prod.mk.sizeOf_spec] at *
    omega

/-- The layout of an argument. -/
def Argument.layout (a : Argument) : Layout :=
  word a.name ++ mark .colon ++ [.space] ++ a.value.layout

/-- The layout of a directive. -/
def Directive.layout (d : Directive) : Layout :=
  mark .atSign ++ word d.name ++ parenthesized (d.arguments.map Argument.layout)

/-- Directives on one line. -/
def directivesLayout (directives : List Directive) : Layout :=
  spaced (directives.map Directive.layout)

/-- The mark of a required type. -/
def requiredMark (required : Bool) : Layout := if required then mark .bang else []

/-- The layout of a type reference. -/
def TypeRef.layout : TypeRef → Layout
  | .named name required => word name ++ requiredMark required
  | .list item required =>
    mark .bracketOpen ++ item.layout ++ mark .bracketClose ++ requiredMark required

/-- A default value with the equals sign in front. -/
def defaultLayout (default? : Option Value) : Layout :=
  wrap (mark .equals ++ [.space]) ((default?.map Value.layout).getD [])

/-! ## Parts of type definitions -/

/-- A description on its own line. -/
def descriptionLayout (description : Option StringLiteral) : Layout :=
  match description with
  | some literal => .ofString literal :: newline
  | none => []

/-- The layout of an argument of a definition, or of a field of an input type. -/
def InputValueDef.layout (v : InputValueDef) : Layout :=
  descriptionLayout v.description
    ++ spaced [word v.name ++ mark .colon ++ [.space] ++ v.type.layout, defaultLayout v.default?,
      directivesLayout v.directives]

/-- The arguments of a definition. -/
def argumentDefsLayout (arguments : List InputValueDef) : Layout :=
  let items := arguments.map InputValueDef.layout
  if items.any isMultiline then onLines .parenOpen .parenClose items else parenthesized items

/-- The layout of a field of an object or interface type. -/
def FieldDef.layout (f : FieldDef) : Layout :=
  descriptionLayout f.description ++ word f.name ++ argumentDefsLayout f.arguments ++ mark .colon
    ++ [.space] ++ f.type.layout ++ wrap [.space] (directivesLayout f.directives)

/-- The layout of a value of an enum type. -/
def EnumValueDef.layout (v : EnumValueDef) : Layout :=
  descriptionLayout v.description ++ spaced [word v.name, directivesLayout v.directives]

/-- The layout of the root type of an operation. -/
def RootType.layout (r : RootType) : Layout :=
  word r.operation.keyword ++ mark .colon ++ [.space] ++ word r.type

/-- Names with a mark between them. -/
def namesLayout (separator : Punctuator) (names : List String) : Layout :=
  join ([.space] ++ mark separator ++ [.space]) (names.map word)

/-- The interfaces of a type, with the keyword in front. -/
def interfacesLayout (interfaces : List String) : Layout :=
  wrap (word "implements" ++ [.space]) (namesLayout .amp interfaces)

/-- The layout of a type block. -/
def TypeDecl.layout (decl : TypeDecl) : Layout :=
  let name := word decl.name
  let directives := directivesLayout decl.directives
  match decl.body with
  | .scalar => spaced [word "scalar", name, directives]
  | .object interfaces fields =>
    spaced [word "type", name, interfacesLayout interfaces, directives,
      block (fields.map FieldDef.layout)]
  | .interface interfaces fields =>
    spaced [word "interface", name, interfacesLayout interfaces, directives,
      block (fields.map FieldDef.layout)]
  | .union members =>
    spaced [word "union", name, directives,
      wrap (mark .equals ++ [.space]) (namesLayout .pipe members)]
  | .enum values => spaced [word "enum", name, directives, block (values.map EnumValueDef.layout)]
  | .input fields =>
    spaced [word "input", name, directives, block (fields.map InputValueDef.layout)]

/-- The layout of a schema block. -/
def schemaLayout (directives : List Directive) (roots : List RootType) : Layout :=
  spaced [word "schema", directivesLayout directives, block (roots.map RootType.layout)]

/-- The layout of a directive definition. -/
def DirectiveDef.layout (d : DirectiveDef) : Layout :=
  descriptionLayout d.description ++ word "directive" ++ [.space] ++ mark .atSign ++ word d.name
    ++ argumentDefsLayout d.arguments
    ++ (if d.repeatable then .space :: word "repeatable" else [])
    ++ [.space] ++ word "on" ++ [.space] ++ namesLayout .pipe (d.locations.map (·.name))

/-! ## Executable definitions -/

/-- A selected field whose name and arguments take more characters than this has its arguments on
lines of their own. -/
def widestSelection : Nat := 80

/-- The name and arguments of a selected field. -/
def selectedFieldLayout (alias? : Option String) (name : String) (arguments : List Argument) :
    Layout :=
  let head := match alias? with
    | some label => word label ++ mark .colon ++ [.space] ++ word name
    | none => word name
  let items := arguments.map Argument.layout
  let inline := head ++ parenthesized items
  if widestSelection < inline.render.length then head ++ onLines .parenOpen .parenClose items
  else inline

/-- The layout of an item of a selection set. -/
def Selection.layout : Selection → Layout
  | .field alias? name arguments directives selections =>
    spaced [selectedFieldLayout alias? name arguments, directivesLayout directives,
      Layout.block (selections.map fun item => item.layout)]
  | .spread fragment directives =>
    mark .spread ++ word fragment ++ wrap [.space] (directivesLayout directives)
  | .inline on? directives selections =>
    spaced [mark .spread, (on?.map fun on => word "on" ++ [.space] ++ word on).getD [],
      directivesLayout directives, Layout.block (selections.map fun item => item.layout)]

/-- A selection set. -/
def selectionsLayout (selections : List Selection) : Layout :=
  block (selections.map Selection.layout)

/-- The layout of a variable that an operation declares. -/
def VariableDef.layout (v : VariableDef) : Layout :=
  mark .dollar ++ word v.name ++ mark .colon ++ [.space] ++ v.type.layout
    ++ wrap [.space] (defaultLayout v.default?) ++ wrap [.space] (directivesLayout v.directives)

/-- The layout of an operation. A query that has nothing in front of its selection set is written as
that set alone. -/
def Operation.layout (o : Operation) : Layout :=
  let name := (o.name?.map word).getD [] ++ parenthesized (o.variableDefs.map VariableDef.layout)
  let directives := directivesLayout o.directives
  if o.kind = .query && name.isEmpty && directives.isEmpty then selectionsLayout o.selections
  else
    spaced [word o.kind.keyword, name, directives] ++ [.space] ++ selectionsLayout o.selections

/-- The layout of a fragment. -/
def Fragment.layout (f : Fragment) : Layout :=
  word "fragment" ++ [.space] ++ word f.name ++ [.space] ++ word "on" ++ [.space] ++ word f.on
    ++ [.space] ++ wrap [] (directivesLayout f.directives) [.space] ++ selectionsLayout f.selections

/-! ## Documents -/

/-- The layout of a definition. -/
def Definition.layout : Definition → Layout
  | .operation o => o.layout
  | .fragment f => f.layout
  | .schema description directives roots =>
    descriptionLayout description ++ schemaLayout directives roots
  | .type description decl => descriptionLayout description ++ decl.layout
  | .directive d => d.layout
  | .extendSchema directives roots => word "extend" ++ [.space] ++ schemaLayout directives roots
  | .extendType decl => word "extend" ++ [.space] ++ decl.layout

/-- The layout of a document. -/
def Document.layout (d : Document) : Layout :=
  join (newline ++ newline) (d.definitions.map Definition.layout)

/-- The text of a document. -/
def Document.print (d : Document) : String := String.ofList d.layout.render

/-- The text of a field definition. -/
def FieldDef.print (f : FieldDef) : String := String.ofList f.layout.render

/-- The text of a directive. -/
def Directive.print (d : Directive) : String := String.ofList d.layout.render

end ResolverWiring.Graphql
