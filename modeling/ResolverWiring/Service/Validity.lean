import ResolverWiring.Schema.Validation
import ResolverWiring.Service.CleanSchema

/-!
# `ResolverWiring.Service.Validity` — services with a valid schema

A service is valid if its clean schema is. Nothing is written.
-/

namespace ResolverWiring

/-- Why a service is not valid. -/
inductive ServiceValidityError where
  | processing (error : ProcessingError)
  | invalid (error : ValidationError)
deriving Repr, Inhabited

/-- Checks the clean schema of a service. -/
def validateService (settings : Settings) : Run ServiceValidityError Unit := do
  let extraction ← Run.mapError .processing (extractService settings)
  Run.ofResult .invalid (validateSchema extraction.cleanText)
  Run.report [⟨.debug, .validation, "Schema is valid"⟩]

end ResolverWiring
