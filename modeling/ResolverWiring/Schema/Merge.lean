import ResolverWiring.Files.Path
import ResolverWiring.Graphql.Parser.TypeSystem
import ResolverWiring.Graphql.Printer

/-!
# `ResolverWiring.Schema.Merge` — one schema from several fragments

`Document.merged` joins the object types of one name into the first of them: its fields are the fields
of all of them in order, and of interfaces and directives the first of each name stays. Every other
definition is kept where it stands.
-/

namespace ResolverWiring.Graphql

/-- The items of which no earlier one has the same key. -/
def firstOfEach {α : Type} (key : α → String) (items : List α) : List α :=
  go [] items
where
  /-- The items whose key is neither in `seen` nor that of an earlier item. -/
  go (seen : List String) : List α → List α
    | [] => []
    | item :: others =>
      if seen.contains (key item) then go seen others
      else item :: go (key item :: seen) others

/-- Two object type definitions of one name as one; `none` for any other two definitions. -/
def Definition.mergedWith? (current addition : Definition) : Option Definition :=
  match current, addition with
  | .type description ⟨name, directives, .object interfaces fields⟩,
    .type description' ⟨name', directives', .object interfaces' fields'⟩ =>
    if name = name' then
      some <| .type (description <|> description')
        ⟨name, firstOfEach (·.name) (directives ++ directives'),
          .object (firstOfEach id (interfaces ++ interfaces')) (fields ++ fields')⟩
    else none
  | _, _ => none

/-- Adds a definition to merged ones: to the one it can be merged with, or at the end. -/
def mergeInto (merged : List Definition) (addition : Definition) : List Definition :=
  match merged with
  | [] => [addition]
  | current :: others =>
    match current.mergedWith? addition with
    | some both => both :: others
    | none => current :: mergeInto others addition

/-- Definitions with the object types of one name merged. -/
def mergeDefinitions (definitions : List Definition) : List Definition :=
  definitions.foldl mergeInto []

end ResolverWiring.Graphql

namespace ResolverWiring

open Graphql Files

/-- A part of a schema, and the file it comes from. -/
structure SchemaFragment where
  path : Path
  text : String
deriving DecidableEq, Repr, Inhabited

/-- A fragment that is not in the grammar. -/
structure FragmentError where
  path : Path
  cause : SyntaxError
deriving DecidableEq, Repr, Inhabited

/-- The wording of a fragment error. -/
def FragmentError.message (e : FragmentError) : String :=
  "Invalid schema fragment " ++ e.path.toString ++ ": " ++ e.cause.message

namespace SchemaFragment

/-- The document of a fragment. -/
def parse (fragment : SchemaFragment) : Except FragmentError Document :=
  (Document.parse fragment.text).mapError fun fault => ⟨fragment.path, fault.cause⟩

/-- The documents of fragments; the first one that cannot be parsed fails. -/
def parseAll (fragments : List SchemaFragment) : Except FragmentError (List Document) :=
  fragments.mapM parse

end SchemaFragment

/-- The document that fragments make up together. -/
def Graphql.Document.merged (documents : List Document) : Document :=
  ⟨mergeDefinitions (documents.flatMap (·.definitions))⟩

/-- The schema text that fragments make up together. -/
def mergeFragments (fragments : List SchemaFragment) : Except FragmentError String :=
  (SchemaFragment.parseAll fragments).map fun documents => (Document.merged documents).print

/-- The object types of a definition list that are merged into an earlier one of it or of the types
seen before, in order. -/
def repeatedTypes (seen : List String) : List Definition → List String
  | [] => []
  | .type _ ⟨name, _, .object _ _⟩ :: others =>
    if seen.contains name then name :: repeatedTypes seen others
    else repeatedTypes (name :: seen) others
  | _ :: others => repeatedTypes seen others

/-- The merges of object types that happen before the first fragment that cannot be parsed: the name
of the type and the fragment that adds to it. -/
def mergesBeforeError (fragments : List SchemaFragment) : List (String × Path) :=
  go [] fragments
where
  /-- The same, after definitions that have been seen. -/
  go (before : List Definition) : List SchemaFragment → List (String × Path)
    | [] => []
    | fragment :: others =>
      match fragment.parse with
      | .error _ => []
      | .ok document =>
        let all := before ++ document.definitions
        let merged := (repeatedTypes [] all).drop (repeatedTypes [] before).length
        merged.map (·, fragment.path) ++ go all others

end ResolverWiring
