import ResolverWiring.Decimal.DigitLimit
import ResolverWiring.Schema.Extract
import ResolverWiring.Service.SettingsFile
import ResolverWiring.Service.Source

/-!
# `ResolverWiring.Service.CleanSchema` — the schema of a service without annotations

The annotated schema of a service gives its bindings and its clean schema. The clean schema is written
next to the service, and only once the bindings are known, so a malformed schema leaves no trace.
-/

namespace ResolverWiring

open Decimal Files

/-- Why the schema of a service is not processed. -/
inductive ProcessingError where
  | source (error : SourceError)
  | extraction (error : ExtractError)
  | schemaUnwritable (error : FileError)
  | resourcesUnwritable (error : FileError)
  | resourcesUnprintable (error : TooManyDigits)
  /-- The resources hold themselves. -/
  | resourcesEndless
deriving Repr, Inhabited

/-- The wording of a processing error. -/
def ProcessingError.message : ProcessingError → String
  | .source error => error.message
  | .extraction error => error.message
  | .schemaUnwritable error => "Failed to write clean schema: " ++ error.message
  | .resourcesUnwritable .nullInPath => FileError.nullInPath.message
  | .resourcesUnprintable error => error.message
  | .resourcesEndless => "maximum recursion depth exceeded"
  | .resourcesUnwritable error => "Failed to write service resources: " ++ error.message

/-- The bindings of a service, and its clean schema as a text. -/
def extractService (settings : Settings) : Run ProcessingError Extraction := do
  let text ← Run.mapError .source (loadSchema settings.interface.source)
  Run.report (extractionLog text lambdaDirective)
  Run.ofResult .extraction (extract text lambdaDirective)

/-- The bindings of a service, and the absolute path of its clean schema. -/
structure ProcessedSchema where
  bindings : List Binding
  path : Path
deriving DecidableEq, Repr, Inhabited

/-- Writes the clean schema of a service. -/
def processSchema (settings : Settings) : Run ProcessingError ProcessedSchema := do
  let extraction ← extractService settings
  let path := settings.cleanSchemaPath
  Run.mapError .schemaUnwritable (Run.write path extraction.cleanText)
  Run.report [⟨.info, .processing,
    "Wrote clean schema with " ++ toString extraction.bindings.length ++ " binding(s) to "
      ++ path.toString⟩]
  return ⟨extraction.bindings, (← Run.files).resolve path⟩

end ResolverWiring
