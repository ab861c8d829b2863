import ResolverWiring.Binding.Scan
import ResolverWiring.Graphql.Parser.TypeSystem
import ResolverWiring.Graphql.Printer
import ResolverWiring.Schema.Normalize

/-!
# `ResolverWiring.Schema.Extract` — from an annotated schema text to bindings and a clean text
-/

namespace ResolverWiring

open Graphql

/-- Why a schema text yields no bindings. -/
inductive ExtractError where
  | malformed (fault : SyntaxFault)
  | localized (error : LocalizedError)
deriving DecidableEq, Repr, Inhabited

/-- The wording of an extraction error. -/
def ExtractError.message : ExtractError → String
  | .malformed fault => fault.cause.message
  | .localized error => error.message

/-- The bindings of a schema and its text without their annotations. -/
structure Extraction where
  bindings : List Binding
  cleanText : String
deriving DecidableEq, Repr, Inhabited

/-- Reads a schema text, scans it for the directive and prints what remains. -/
def extract (text directive : String) : Except ExtractError Extraction := do
  let document ← (Document.parse text).mapError .malformed
  let result ← (scan document directive).mapError .localized
  return ⟨result.bindings, (result.document.normalize result.emptiedTypes).print⟩

/-- Extracts one directive after the other, each from the text that the last successful extraction
left. -/
def extractChain (text : String) : List String → List (Except ExtractError Extraction)
  | [] => []
  | directive :: others =>
    let outcome := extract text directive
    let left := match outcome with
      | .ok extraction => extraction.cleanText
      | .error _ => text
    outcome :: extractChain left others

end ResolverWiring
