import ResolverWiring.Graphql.Rules.Vocabulary

/-!
# `ResolverWiring.Graphql.Rules` — the rules for documents that define a schema

`Document.problems` lists what is wrong with a document, in the order in which its parts are visited: a
part in front of what it holds, and what it holds in the order of the language definition. What is
found at one part is listed in the order of the rules.

Some rules look back: a name may be declared only once, and extensions go on where the definition
stopped. They are given the definitions in front.

## Contents

* values, arguments and directives (`Directive.problems`);
* type references (`typeProblems`);
* the parts of type definitions;
* executable definitions;
* rules that look at a whole definition (`Definition.problems`);
* `Document.problems`.
-/

namespace ResolverWiring.Graphql

/-! ## Repetition -/

/-- The items of a list that occur in the list given or earlier in their own list. -/
def repetitions (seen : List String) : List String → List String
  | [] => []
  | name :: others =>
    if seen.contains name then name :: repetitions seen others
    else repetitions (name :: seen) others

/-- The names that occur more than once in a list, each of them once, in order. -/
def repeatedNames (names : List String) : List String :=
  names.eraseDups.filter fun name => 1 < names.count name

/-! ## Values and arguments -/

mutual

/-- The problems of a value: fields of an object that are given again. -/
def Value.problems : Value → List RuleProblem
  | .list items => itemProblems items
  | .object fields => inputFieldProblems [] fields
  | _ => []

/-- The problems of the items of a list. -/
def itemProblems : List Value → List RuleProblem
  | [] => []
  | item :: others => item.problems ++ itemProblems others

/-- The problems of the fields of an object, behind fields with other names. -/
def inputFieldProblems (seen : List String) : List (String × Value) → List RuleProblem
  | [] => []
  | (name, value) :: others =>
    (if seen.contains name then [.repeatedInputField name] else [])
      ++ value.problems ++ inputFieldProblems (name :: seen) others

end

/-- The problems of the values of arguments. -/
def argumentValueProblems (arguments : List Argument) : List RuleProblem :=
  arguments.flatMap fun a => a.value.problems

/-- Arguments that are given again. -/
def repeatedArgumentProblems (arguments : List Argument) : List RuleProblem :=
  (repeatedNames (arguments.map (·.name))).map .repeatedArgument

/-! ## Directives -/

/-- Whether a directive may stand at a place. -/
def locationProblems (v : Vocabulary) (location : DirectiveLocation) (d : Directive) :
    List RuleProblem :=
  match v.directive? d.name with
  | none => [.unknownDirective d.name]
  | some definition =>
    if definition.locations.contains location then [] else [.misplacedDirective d.name location]

/-- Arguments that a directive does not have. -/
def unknownArgumentProblems (v : Vocabulary) (d : Directive) : List RuleProblem :=
  match v.directive? d.name with
  | none => []
  | some definition =>
    let known := definition.arguments.map (·.name)
    d.arguments.filterMap fun a =>
      if known.contains a.name then none
      else some (.unknownArgument d.name a.name (suggestions a.name known))

/-- Whether an argument has to be given. -/
def InputValueDef.isRequired (i : InputValueDef) : Bool := i.type.isRequired && i.default?.isNone

/-- Arguments that a directive needs and that are not given. -/
def missingArgumentProblems (v : Vocabulary) (d : Directive) : List RuleProblem :=
  match v.directive? d.name with
  | none => []
  | some definition =>
    let required := definition.arguments.filter (·.isRequired)
    ((required.map (·.name)).eraseDups.filter fun name => !d.arguments.any (·.name == name)).filterMap
      fun name =>
        (required.reverse.find? (·.name == name)).map fun i => .missingArgument d.name name i.type

/-- The problems of a directive at a place. -/
def Directive.problems (v : Vocabulary) (location : DirectiveLocation) (d : Directive) :
    List RuleProblem :=
  locationProblems v location d ++ unknownArgumentProblems v d ++ repeatedArgumentProblems d.arguments
    ++ argumentValueProblems d.arguments ++ missingArgumentProblems v d

/-- The problems of directives at a place. -/
def directivesProblems (v : Vocabulary) (location : DirectiveLocation) (directives : List Directive) :
    List RuleProblem :=
  directives.flatMap (·.problems v location)

/-- Directives that may stand only once and stand again, behind the ones with these names. -/
def repeatedDirectiveProblems (v : Vocabulary) (before : List Directive) (directives : List Directive) :
    List RuleProblem :=
  let unique (d : Directive) : Bool := (v.directive? d.name).any (!·.repeatable)
  let names (ds : List Directive) : List String := (ds.filter unique).map (·.name)
  (repetitions (names before) (names directives)).map .repeatedDirective

/-! ## Type references -/

/-- Whether a name is that of a type. Inside of type system definitions the types of the language
count too. -/
def typeProblems (v : Vocabulary) (inSchema : Bool) (name : String) : List RuleProblem :=
  if v.typeNames.contains name || (inSchema && builtInNames.contains name) then []
  else
    let options := if inSchema then builtInNames ++ v.typeNames else v.typeNames
    [.unknownType name (suggestions name options)]

/-! ## Parts of type definitions -/

/-- The problems of a default value. -/
def defaultProblems (default? : Option Value) : List RuleProblem :=
  (default?.map (·.problems)).getD []

/-- The problems of an argument definition or input field. -/
def InputValueDef.problems (v : Vocabulary) (location : DirectiveLocation) (i : InputValueDef) :
    List RuleProblem :=
  repeatedDirectiveProblems v [] i.directives ++ typeProblems v true i.type.base
    ++ defaultProblems i.default? ++ directivesProblems v location i.directives

/-- The problems of a field definition. -/
def FieldDef.problems (v : Vocabulary) (f : FieldDef) : List RuleProblem :=
  repeatedDirectiveProblems v [] f.directives
    ++ f.arguments.flatMap (·.problems v .argumentDefinition) ++ typeProblems v true f.type.base
    ++ directivesProblems v .fieldDefinition f.directives

/-- The problems of an enum value. -/
def EnumValueDef.problems (v : Vocabulary) (e : EnumValueDef) : List RuleProblem :=
  repeatedDirectiveProblems v [] e.directives ++ directivesProblems v .enumValue e.directives

/-- The problems of names of types. -/
def namesProblems (v : Vocabulary) (names : List String) : List RuleProblem :=
  names.flatMap (typeProblems v true)

/-- The problems of what a type block holds. Directives on the fields of an input type stand at the
place of an argument if the block is an extension. -/
def TypeDecl.innerProblems (v : Vocabulary) (extension : Bool) (decl : TypeDecl) :
    List RuleProblem :=
  let directives := directivesProblems v decl.body.sort.location decl.directives
  match decl.body with
  | .scalar => directives
  | .object interfaces fields =>
    namesProblems v interfaces ++ directives ++ fields.flatMap (·.problems v)
  | .interface interfaces fields =>
    namesProblems v interfaces ++ directives ++ fields.flatMap (·.problems v)
  | .union members => directives ++ namesProblems v members
  | .enum values => directives ++ values.flatMap (·.problems v)
  | .input fields =>
    let location := if extension then DirectiveLocation.argumentDefinition else .inputFieldDefinition
    directives ++ fields.flatMap (·.problems v location)

/-! ## Executable definitions -/

mutual

/-- The problems of a selection. -/
def Selection.problems (v : Vocabulary) : Selection → List RuleProblem
  | .field _ _ arguments directives selections =>
    repeatedDirectiveProblems v [] directives ++ repeatedArgumentProblems arguments
      ++ argumentValueProblems arguments ++ directivesProblems v .field directives
      ++ selectionsProblems v selections
  | .spread _ directives =>
    repeatedDirectiveProblems v [] directives ++ directivesProblems v .fragmentSpread directives
  | .inline on? directives selections =>
    repeatedDirectiveProblems v [] directives ++ (on?.map (typeProblems v false)).getD []
      ++ directivesProblems v .inlineFragment directives ++ selectionsProblems v selections

/-- The problems of a selection set. -/
def selectionsProblems (v : Vocabulary) : List Selection → List RuleProblem
  | [] => []
  | selection :: others => selection.problems v ++ selectionsProblems v others

end

/-- The problems of a variable. -/
def VariableDef.problems (v : Vocabulary) (d : VariableDef) : List RuleProblem :=
  repeatedDirectiveProblems v [] d.directives ++ typeProblems v false d.type.base
    ++ defaultProblems d.default? ++ directivesProblems v .variableDefinition d.directives

/-- The place of directives on an operation. -/
def OperationKind.location : OperationKind → DirectiveLocation
  | .query => .query
  | .mutation => .mutation
  | .subscription => .subscription

/-- The problems of an operation. -/
def Operation.problems (v : Vocabulary) (o : Operation) : List RuleProblem :=
  repeatedDirectiveProblems v [] o.directives ++ o.variableDefs.flatMap (·.problems v)
    ++ directivesProblems v o.kind.location o.directives ++ selectionsProblems v o.selections

/-- The problems of a fragment. -/
def Fragment.problems (v : Vocabulary) (f : Fragment) : List RuleProblem :=
  repeatedDirectiveProblems v [] f.directives ++ typeProblems v false f.on
    ++ directivesProblems v .fragmentDefinition f.directives ++ selectionsProblems v f.selections

/-! ## Whole definitions -/

/-- The type block of a definition or extension. -/
def Definition.typeBlock? : Definition → Option TypeDecl
  | .type _ decl => some decl
  | .extendType decl => some decl
  | _ => none

/-- The blocks of a type among definitions. -/
def blocksOf (definitions : List Definition) (name : String) : List TypeDecl :=
  (definitions.filterMap Definition.typeBlock?).filter (·.name == name)

/-- The names of the fields in a body, of whichever sort. -/
def TypeBody.fieldNames : TypeBody → List String
  | .object _ fields => fields.map (·.name)
  | .interface _ fields => fields.map (·.name)
  | .input fields => fields.map (·.name)
  | _ => []

/-- The names of the values in a body. -/
def TypeBody.valueNames : TypeBody → List String
  | .enum values => values.map (·.name)
  | _ => []

/-- The root types that a definition declares. -/
def Definition.roots : Definition → List RootType
  | .schema _ _ roots => roots
  | .extendSchema _ roots => roots
  | _ => []

/-- The directives on a schema block. -/
def Definition.schemaDirectives : Definition → List Directive
  | .schema _ directives _ => directives
  | .extendSchema directives _ => directives
  | _ => []

/-- Operations that get a root type again. -/
def rootProblems (before : List Definition) (roots : List RootType) : List RuleProblem :=
  let keywords (rs : List RootType) : List String := rs.map (·.operation.keyword)
  (repetitions (keywords (before.flatMap Definition.roots)) (keywords roots)).filterMap
    fun keyword => (OperationKind.ofKeyword? keyword).map .repeatedRoot

/-- Arguments that one owner declares more than once. -/
def argumentDefProblems (owner : String) (arguments : List InputValueDef) : List RuleProblem :=
  (repeatedNames (arguments.map (·.name))).map (.repeatedArgumentDef owner)

/-- Names that a type block declares again, behind definitions. -/
def TypeDecl.repeatedProblems (before : List Definition) (decl : TypeDecl) : List RuleProblem :=
  let blocks := blocksOf before decl.name
  (repetitions (blocks.flatMap (·.body.valueNames)) decl.body.valueNames).map
      (.repeatedEnumValue decl.name)
    ++ (repetitions (blocks.flatMap (·.body.fieldNames)) decl.body.fieldNames).map
      (.repeatedField decl.name)
    ++ decl.body.outputFields.flatMap fun f =>
      argumentDefProblems (decl.name ++ "." ++ f.name) f.arguments

/-- Directives that a type block bears again, behind definitions. -/
def TypeDecl.directiveProblems (v : Vocabulary) (before : List Definition) (decl : TypeDecl) :
    List RuleProblem :=
  repeatedDirectiveProblems v ((blocksOf before decl.name).flatMap (·.directives)) decl.directives

/-- Whether the type that a block extends can be extended so. -/
def TypeDecl.extensionProblems (v : Vocabulary) (decl : TypeDecl) : List RuleProblem :=
  match v.type? decl.name with
  | some definition =>
    if definition.body.sort = decl.body.sort then []
    else [.extendedKind decl.name decl.body.sort]
  | none => [.extendedUndefined decl.name (suggestions decl.name v.typeNames)]

/-- Whether a definition is a schema block. -/
def Definition.isSchema : Definition → Bool
  | .schema _ _ _ => true
  | _ => false

/-- The problems of a schema block or an extension of it, behind definitions. -/
def schemaProblems (v : Vocabulary) (before : List Definition) (directives : List Directive)
    (roots : List RootType) : List RuleProblem :=
  rootProblems before roots
    ++ repeatedDirectiveProblems v (before.flatMap Definition.schemaDirectives) directives
    ++ directivesProblems v .schema directives ++ namesProblems v (roots.map (·.type))

/-- The problems of a definition behind others. -/
def Definition.problems (v : Vocabulary) (before : List Definition) : Definition → List RuleProblem
  | .operation o => o.problems v
  | .fragment f => f.problems v
  | .schema _ directives roots =>
    (if before.any Definition.isSchema then [.severalSchemas] else [])
      ++ schemaProblems v before directives roots
  | .extendSchema directives roots => schemaProblems v before directives roots
  | .type _ decl =>
    (if (typeDecls before).any (·.name == decl.name) then [.repeatedType decl.name] else [])
      ++ decl.repeatedProblems before ++ decl.directiveProblems v before ++ decl.innerProblems v false
  | .extendType decl =>
    decl.repeatedProblems before ++ decl.directiveProblems v before ++ decl.extensionProblems v
      ++ decl.innerProblems v true
  | .directive d =>
    argumentDefProblems ("@" ++ d.name) d.arguments
      ++ (if (directiveDefs before).any (·.name == d.name) then [.repeatedDirectiveDef d.name] else [])
      ++ d.arguments.flatMap (·.problems v .argumentDefinition)

/-- The problems of definitions behind others. -/
def definitionsProblems (v : Vocabulary) (before : List Definition) :
    List Definition → List RuleProblem
  | [] => []
  | d :: others => d.problems v before ++ definitionsProblems v (before ++ [d]) others

/-- What is wrong with a document that defines a schema. -/
def Document.problems (d : Document) : List RuleProblem :=
  definitionsProblems (.ofDocument d) [] d.definitions

end ResolverWiring.Graphql
