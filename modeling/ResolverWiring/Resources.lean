import ResolverWiring.Binding
import ResolverWiring.Configuration

/-!
# `ResolverWiring.Resources` — what a service needs for its bindings

For each binding a service needs a function, which runs the handler, a data source, which calls the
function, and a mapping template, which connects the field with the data source. They are named by the
qualified name of the binding.

`resources` puts them behind what the service declares already. Functions are entries of a mapping, so
a binding replaces a function of its name; data sources and templates are lists.
-/

namespace ResolverWiring

open Files Yaml

/-- A mapping with texts as keys. -/
def record (entries : List (String × Value)) : Value :=
  .map (entries.map fun (key, value) => (.string key, value))

/-- The entries of a mapping with those of another one, which replace entries with the same key. -/
def overlay (entries others : Entries) : Entries :=
  others.foldl (fun done (key, value) => Value.insert done key value) entries

/-! ## One binding -/

namespace Binding

/-- The function that runs the handler of a binding. -/
def function (b : Binding) : Value × Value :=
  (.string b.qualifiedName,
    record [("name", .string b.qualifiedName), ("handler", .string b.handler)])

/-- The data source that calls the function of a binding, in a role. -/
def dataSource (b : Binding) (role : String) : Value :=
  record [
    ("name", .string b.qualifiedName),
    ("type", .string "AWS_LAMBDA"),
    ("config", record [
      ("functionName", .string b.qualifiedName),
      ("serviceRoleArn", record [("Fn::GetAtt", .list [.string role, .string "Arn"])])])]

/-- The name of the template for requests. -/
def requestTemplate : String := "request.vtl"

/-- The name of the template for responses. -/
def responseTemplate : String := "response.vtl"

/-- The template that connects the field of a binding with its data source; the texts of the templates
stand in a directory. -/
def mappingTemplate (b : Binding) (templates : Path) : Value :=
  let template (name : String) : Value := .string (templates.join (.ofString name)).toString
  record [
    ("dataSource", .string b.qualifiedName),
    ("type", .string b.parentType),
    ("field", .string b.fieldName),
    ("request", template requestTemplate),
    ("response", template responseTemplate)]

end Binding

/-! ## All bindings -/

/-- The functions of a service and of its bindings. -/
def functionEntries (settings : Settings) (bindings : List Binding) : Entries :=
  overlay settings.functions (Value.ofEntries (bindings.map (·.function)))

/-- The role of the generated data sources: the one that is asked for, or that of the settings. -/
def roleOf (settings : Settings) (role? : Option String) : String :=
  match role? with
  | none => settings.interface.serviceRole
  | some role => if role.isEmpty then settings.interface.serviceRole else role

/-- The section of the interface with the schema file and what the bindings need. -/
def interfaceEntries (settings : Settings) (bindings : List Binding) (role : String)
    (templates : Path) : Entries :=
  let interface := settings.interface
  overlay interface.raw [
    (.string "schema", .string cleanSchemaName),
    (.string "dataSources",
      .list (interface.dataSources.map .map ++ bindings.map (·.dataSource role))),
    (.string "mappingTemplates",
      .list (interface.mappingTemplates.map .map ++ bindings.map (·.mappingTemplate templates)))]

/-- The resources of a service with bindings. -/
def resources (settings : Settings) (bindings : List Binding) (role? : Option String)
    (templates : Path) : Value :=
  record [
    ("functions", .map (functionEntries settings bindings)),
    ("custom", record [
      ("appSync",
        .map (interfaceEntries settings bindings (roleOf settings role?) templates))])]

end ResolverWiring
