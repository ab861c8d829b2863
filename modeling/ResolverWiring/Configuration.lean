import ResolverWiring.Files.Tree
import ResolverWiring.Text.Blank
import ResolverWiring.Yaml.Value.OfNode

/-!
# `ResolverWiring.Configuration` — the settings of a service

A service is described by the mapping at the root of its configuration file. `Settings.ofRoot` reads
the parts that the wiring needs and checks their types; the first check that fails is reported.

A text counts without the white space around it, and a blank text as absent. A setting may be a
collection that it stands in.
-/

namespace ResolverWiring

open Files Text Yaml

/-! ## Settings -/

/-- Where the annotated schema comes from: a directory of fragments, or one file. -/
inductive SourceKind where
  | directory
  | file
deriving DecidableEq, Repr, Inhabited

/-- The name of a kind of source. -/
def SourceKind.name : SourceKind → String
  | .directory => "directory"
  | .file => "file"

/-- Where the annotated schema comes from. -/
structure SchemaSource where
  kind : SourceKind
  path : Path
deriving DecidableEq, Repr, Inhabited

/-- The entries of a mapping. -/
abbrev Entries := List (Value × Value)

/-- The settings of the GraphQL interface; `raw` is the whole section. -/
structure InterfaceSettings where
  source : SchemaSource
  serviceRole : String
  dataSources : List Entries
  mappingTemplates : List Entries
  raw : Entries
deriving Repr, Inhabited

/-- The settings of a service. -/
structure Settings where
  servicePath : Path
  functions : Entries
  interface : InterfaceSettings
deriving Repr, Inhabited

/-- The role of generated data sources, if the settings name none. -/
def defaultServiceRole : String := "AppSyncServiceRole"

/-- The name of the file that takes the schema without annotations. -/
def cleanSchemaName : String := ".serverless_schema.graphql"

/-- The file that takes the schema without annotations. -/
def Settings.cleanSchemaPath (s : Settings) : Path := s.servicePath.join (.ofString cleanSchemaName)

/-! ## Errors -/

/-- What is wrong with the settings of a service. -/
inductive SettingsError where
  | rootNotMapping
  | sectionMissing (name : String)
  | notString (name : String)
  | noSource
  | notList (name : String)
  | itemNotMapping (name : String)
  | functionsNotMapping
  | nullInPath
deriving DecidableEq, Repr, Inhabited

/-- The wording of a settings error. -/
def SettingsError.message : SettingsError → String
  | .rootNotMapping => "Configuration root must be a mapping."
  | .sectionMissing name => "Configuration section '" ++ name ++ "' is required."
  | .notString name => name ++ " must be a string."
  | .noSource => "Invalid configuration: neither \"schemaDir\" nor \"schema\" config was found"
  | .notList name => name ++ " must be a list of mappings."
  | .itemNotMapping name => name ++ " entries must be mappings."
  | .functionsNotMapping => "functions must be a mapping."
  | .nullInPath => FileError.nullInPath.message

/-! ## Reading -/

namespace Settings

/-- The setting with a name among entries. -/
def setting? (entries : Entries) (name : String) : Option Value :=
  (Value.lookup? entries name).map Value.opened

/-- The text of a setting; absent if it is null or blank. -/
def readText (name : String) : Option Value → Except SettingsError (Option String)
  | none => .ok none
  | some .null => .ok none
  | some (.string text) =>
    match stripBlanks text.toList with
    | [] => .ok none
    | cs => .ok (some (String.ofList cs))
  | some _ => .error (.notString name)

/-- The mappings of a list; there are none if it is absent. -/
def readMappings (name : String) : Option Value → Except SettingsError (List Entries)
  | none => .ok []
  | some .null => .ok []
  | some (.list items) =>
    items.mapM fun item =>
      match item.opened with
      | .map entries => .ok entries
      | _ => .error (.itemNotMapping name)
  | some _ => .error (.notList name)

/-- The path that the text of a setting denotes; one without a root is seen from the service, and has to
be a path that a file can have. -/
def sourcePath (servicePath : Path) (text : String) : Except SettingsError Path :=
  let path := Path.ofString text
  if path.isAbsolute then .ok path
  else if path.hasNull then .error .nullInPath
  else .ok (servicePath.resolve path)

/-- The name of a setting of the interface, as errors show it. -/
def interfaceSetting (name : String) : String := "custom.appSync." ++ name

/-- The source that the settings name; a directory goes before a file. -/
def readSource (interfaceSection : Entries) (servicePath : Path) :
    Except SettingsError SchemaSource := do
  match ← readText (interfaceSetting "schemaDir") (setting? interfaceSection "schemaDir") with
  | some directory => return ⟨.directory, ← sourcePath servicePath directory⟩
  | none =>
    match ← readText (interfaceSetting "schema") (setting? interfaceSection "schema") with
    | some file => return ⟨.file, ← sourcePath servicePath file⟩
    | none => .error .noSource

/-- The settings of the interface. -/
def readInterface (interfaceSection : Entries) (servicePath : Path) :
    Except SettingsError InterfaceSettings := do
  let setting (name : String) : Option Value := setting? interfaceSection name
  let source ← readSource interfaceSection servicePath
  let role? ← readText (interfaceSetting "serviceRole") (setting "serviceRole")
  let dataSources ← readMappings (interfaceSetting "dataSources") (setting "dataSources")
  let mappingTemplates ←
    readMappings (interfaceSetting "mappingTemplates") (setting "mappingTemplates")
  return ⟨source, role?.getD defaultServiceRole, dataSources, mappingTemplates, interfaceSection⟩

/-- The entries of the root; a root that is null has none. -/
def readRoot : Value → Except SettingsError Entries
  | .null => .ok []
  | .map entries => .ok entries
  | _ => .error .rootNotMapping

/-- The section of the interface. -/
def readSection (root : Entries) : Except SettingsError Entries :=
  match setting? root "custom" with
  | some (.map custom) =>
    match setting? custom "appSync" with
    | some (.map entries) => .ok entries
    | _ => .error (.sectionMissing "custom.appSync")
  | _ => .error (.sectionMissing "custom.appSync")

/-- The functions; whatever is empty stands for none. -/
def readFunctions : Option Value → Except SettingsError Entries
  | none => .ok []
  | some (.map entries) => .ok entries
  | some value => if value.isFalsy then .ok [] else .error .functionsNotMapping

/-- The settings of a service in a directory, from the root of its configuration file. -/
def ofRoot (root : Entries) (servicePath : Path) : Except SettingsError Settings := do
  let interface ← readInterface (← readSection root) servicePath
  let functions ← readFunctions (setting? root "functions")
  return ⟨servicePath, functions, interface⟩

/-- The name of a service, from the root of its configuration file. -/
def readServiceName (root : Entries) : Except SettingsError (Option String) :=
  readText "service" (setting? root "service")

end Settings

end ResolverWiring
