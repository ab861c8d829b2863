import ResolverWiring.Graphql.Parser.TypeSystem
import ResolverWiring.Graphql.Rules
import ResolverWiring.Graphql.Schema.Check
import ResolverWiring.Graphql.Schema.Construction
import ResolverWiring.Graphql.Schema.Place
import ResolverWiring.Schema.AppSync
import ResolverWiring.Text.Excerpt

/-!
# `ResolverWiring.Schema.Validation` — valid AppSync schemas

A schema text is valid if it follows the rules for documents, its types are used where their sort is
allowed, and the schema that it defines has no problems, all together with the definitions that
AppSync provides. Each step is taken only if the steps in front of it find nothing.
-/

namespace ResolverWiring

open Graphql Text

/-! ## Documents -/

/-- What is wrong with a document that defines a schema; an error if no schema can be built from it. -/
def Graphql.Document.check (d : Document) : Except BuildFault (List String) :=
  let d := d.withAppSync
  match d.problems with
  | [] =>
    let schema := Schema.ofDocument d
    match schema.buildFault? with
    | some fault => .error fault
    | none => .ok (schema.problems.map (·.message))
  | found => .ok (found.map (·.message))

/-! ## Texts -/

/-- Why a schema text is not valid. -/
inductive ValidationError where
  | malformed (fault : SyntaxFault)
  | problems (messages : List String)
  | unbuildable (text : String) (document : Document) (fault : BuildFault)
deriving Repr, Inhabited

/-- The wording of a list of problems. -/
def problemList (messages : List String) : String :=
  "Invalid GraphQL schema:\n" ++ String.intercalate "\n" (messages.map ("- " ++ ·))

/-- What is shown of a schema text around an argument. -/
def argumentExcerpt (text : String) (document : Document) (fault : ArgumentFault) : String :=
  match fault.place? text document with
  | some place => excerpt "GraphQL request" text.toList place
  | none => ""

/-- The wording of a validation error. -/
def ValidationError.message : ValidationError → String
  | .malformed fault => fault.cause.message
  | .problems messages => problemList messages
  | .unbuildable text document fault => fault.message (argumentExcerpt text document)

/-- Checks a schema text. -/
def validateSchema (text : String) : Except ValidationError Unit := do
  let document ← (Document.parse text).mapError .malformed
  match document.check with
  | .ok [] => return ()
  | .ok messages => throw (.problems messages)
  | .error fault => throw (.unbuildable text document fault)

end ResolverWiring
