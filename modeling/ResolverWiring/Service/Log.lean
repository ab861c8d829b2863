import ResolverWiring.Binding.Scan
import ResolverWiring.Schema.Merge

/-!
# `ResolverWiring.Service.Log` — what a run reports about itself

A log entry says what a part of the program has done. Entries never decide anything; the command line
shows them if it is asked to.
-/

namespace ResolverWiring

open Files Graphql

/-- The two levels of log entries. -/
inductive LogLevel where
  | debug
  | info
deriving DecidableEq, Repr, Inhabited

/-- The name of a level. -/
def LogLevel.name : LogLevel → String
  | .debug => "DEBUG"
  | .info => "INFO"

/-- The parts of the program that report. -/
inductive Reporter where
  | settings
  | source
  | scan
  | extraction
  | processing
  | resources
  | validation
deriving DecidableEq, Repr, Inhabited

/-- The name of a part of the program. -/
def Reporter.name (r : Reporter) : String :=
  "appsync_lambda_schema." ++ match r with
  | .settings => "configuration.loader"
  | .source => "schema_assembly.schema_sources"
  | .scan => "directive_extraction.directive_scanner"
  | .extraction => "directive_extraction.schema_extractor"
  | .processing => "schema_processing.processing_use_case"
  | .resources => "resource_generation.service_resources"
  | .validation => "schema_processing.schema_validation"

/-- One report. -/
structure LogEntry where
  level : LogLevel
  reporter : Reporter
  text : String
deriving DecidableEq, Repr, Inhabited

/-- The line that shows an entry. -/
def LogEntry.line (e : LogEntry) : String :=
  e.level.name ++ " " ++ e.reporter.name ++ ": " ++ e.text

/-! ## Reports of pure parts -/

/-- What the extraction from a schema text reports: every binding found, and the counts once all of them
are well formed. -/
def extractionLog (text directive : String) : List LogEntry :=
  match Document.parse text with
  | .error _ => []
  | .ok document =>
    let all := findings document directive
    let bindings := bindingsBeforeError all
    let found := bindings.map fun b =>
      LogEntry.mk .debug .scan
        ("Found " ++ directive ++ " binding " ++ b.qualifiedName ++ " -> " ++ b.handler)
    if bindings.length = all.length then
      let count := toString bindings.length ++ " binding(s)"
      found ++ [⟨.debug, .scan, "Scanner collected " ++ count⟩,
        ⟨.debug, .extraction, "Extracted " ++ count ++ " from schema"⟩]
    else found

/-- What merging fragments reports: every object type that is merged into an earlier one. -/
def mergeLog (fragments : List SchemaFragment) : List LogEntry :=
  (mergesBeforeError fragments).map fun (type, path) =>
    ⟨.debug, .source, "Merging type " ++ type ++ " from " ++ path.toString⟩

end ResolverWiring
