import ResolverWiring.Graphql.Parser.Value

/-!
# `ResolverWiring.Graphql.Parser.Selection` — parsing executable definitions

Operations, fragments and the selection sets in them.
-/

namespace ResolverWiring.Graphql.Parser

/-- The name of a fragment, which is any name but the keyword `on`. -/
def parseFragmentName : Parser String := do
  if (← peek).value? = some "on" then unexpected else parseName

/-- Directives and then a selection set, for what must have one. -/
def withSelections {α : Type} (make : List Directive → List Selection → α)
    (selections : Parser (List Selection)) : Parser α := do
  let directives ← parseDirectives false
  return make directives (← selections)

/-- A spread or an inline fragment, given the parser for nested selection sets. -/
def parseSpread (selections : Parser (List Selection)) : Parser Selection := do
  expect .spread
  if ← takeKeyword "on" then
    let on ← parseName
    withSelections (.inline (some on)) selections
  else
    match ← peek with
    | .name _ =>
      let fragment ← parseFragmentName
      return .spread fragment (← parseDirectives false)
    | _ => withSelections (.inline none) selections

/-- A selected field, given the parser for nested selection sets. -/
def parseField (selections : Parser (List Selection)) : Parser Selection := do
  let first ← parseName
  let (alias?, name) ← do
    if ← takeMark .colon then
      let name ← parseName
      pure (some first, name)
    else
      pure (none, first)
  let arguments ← parseArguments false
  let directives ← parseDirectives false
  let nested ← do
    if (← peek) = .punctuator .braceOpen then selections else pure []
  return .field alias? name arguments directives nested

/-- A selection set that is nested at most as deep as the bound says. -/
def selectionsWithin : Nat → Parser (List Selection)
  | 0 => unexpected
  | bound + 1 =>
    let item : Parser Selection := do
      if (← peek) = .punctuator .spread then parseSpread (selectionsWithin bound)
      else parseField (selectionsWithin bound)
    between .braceOpen item .braceClose

/-- A selection set. -/
def parseSelections : Parser (List Selection) := bounded selectionsWithin

/-- The keyword of an operation. -/
def parseOperationKind : Parser OperationKind := do
  let start ← get
  let word ← parseName
  match OperationKind.ofKeyword? word with
  | some kind => return kind
  | none => failAt start (.unexpected (front start))

/-- A variable that an operation declares. -/
def parseVariableDef : Parser VariableDef := do
  let name ← parseVariable
  expect .colon
  let type ← parseType
  let default? ← parseDefault
  let directives ← parseDirectives true
  return ⟨name, type, default?, directives⟩

/-- An operation; a selection set alone is a query without a name. -/
def parseOperation : Parser Operation := do
  if (← peek) = .punctuator .braceOpen then
    return ⟨.query, none, [], [], ← parseSelections⟩
  else
    let kind ← parseOperationKind
    let name? ← do
      match ← peek with
      | .name _ => some <$> parseName
      | _ => pure none
    let variableDefs ← optionalBetween .parenOpen parseVariableDef .parenClose
    let directives ← parseDirectives false
    let selections ← parseSelections
    return ⟨kind, name?, variableDefs, directives, selections⟩

/-- A named fragment. -/
def parseFragment : Parser Fragment := do
  expectKeyword "fragment"
  let name ← parseFragmentName
  expectKeyword "on"
  let on ← parseName
  withSelections (Fragment.mk name on) parseSelections

end ResolverWiring.Graphql.Parser
