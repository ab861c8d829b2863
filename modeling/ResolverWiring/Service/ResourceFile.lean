import ResolverWiring.Resources
import ResolverWiring.Service.CleanSchema
import ResolverWiring.Yaml.Printer

/-!
# `ResolverWiring.Service.ResourceFile` — the resources of a service in a file

Generating resources processes the schema first; the clean schema stays if the resources cannot be
written.
-/

namespace ResolverWiring

open Files

/-- A processed schema, and the absolute path of the resources for it. -/
structure GeneratedResources where
  processed : ProcessedSchema
  path : Path
deriving DecidableEq, Repr, Inhabited

/-- The text of resources. -/
def resourcesText (resources : Yaml.Value) : Except ProcessingError String :=
  if resources.isEndless then .error .resourcesEndless
  else (Yaml.print resources).mapError .resourcesUnprintable

/-- Writes resources to a file, with the directories that lead to it. The directories are made even if the
resources cannot be written as a text. -/
def writeResources (path : Path) (resources : Yaml.Value) : Run ProcessingError Unit := do
  Run.mapError .resourcesUnwritable (Run.makeDirectories path.parent)
  let text ← Run.ofResult id (resourcesText resources)
  Run.mapError .resourcesUnwritable (Run.write path text)

/-- Writes the clean schema of a service and the resources that its bindings need. `templates` is the
directory of the template texts, which the resources name. -/
def generateResources (settings : Settings) (output : Path) (role? : Option String)
    (templates : Path) : Run ProcessingError GeneratedResources := do
  let processed ← processSchema settings
  let built := resources settings processed.bindings role? templates
  Run.report [⟨.debug, .resources,
    "Generated resources for " ++ toString processed.bindings.length ++ " binding(s) with role "
      ++ roleOf settings role?⟩]
  writeResources output built
  return ⟨processed, (← Run.files).resolve output⟩

end ResolverWiring
