import ResolverWiring.Configuration
import ResolverWiring.Service.Run
import ResolverWiring.Yaml.Load

/-!
# `ResolverWiring.Service.SettingsFile` — settings from a file

Reads a configuration file, and writes the placeholder for one.
-/

namespace ResolverWiring

open Files Text Yaml

/-- A service: its name and its settings, and the file they come from. -/
structure Service where
  path : Path
  name? : Option String
  settings : Settings
deriving Repr, Inhabited

/-- Why a configuration file gives no settings. -/
inductive SettingsFileError where
  | notFound (path : Path)
  | unreadable (error : FileError)
  | notUtf8 (fault : Utf8.Fault)
  | malformed (text : String) (error : LoadError)
  | invalid (error : SettingsError)
deriving Repr, Inhabited

/-- The wording of the error of a configuration file. -/
def SettingsFileError.message : SettingsFileError → String
  | .notFound path => "Configuration file not found: " ++ path.toString
  | .unreadable error => error.message
  | .notUtf8 fault => fault.message
  | .malformed _ (.scalar error) => error.message
  | .malformed text error => "Failed to parse configuration file: " ++ error.message text.toList
  | .invalid error => error.message

/-- The directory that the settings in a file are seen from: the one that is asked for, which has to be
a path that a file can have, or that of the file. -/
def servicePathOf (files : FileSystem) (path : Path) (directory? : Option String) :
    Except FileError Path :=
  match directory?.filter (!·.isEmpty) with
  | none => .ok (files.resolve path).parent
  | some directory =>
    let directory := Path.ofString directory
    if directory.hasNull then .error .nullInPath else .ok (files.resolve directory)

/-- The settings in the root of a configuration file, and the name of the service. The name is read last,
and the settings are reported before. -/
def readService (path servicePath : Path) (root : Entries) : Run SettingsFileError Service := do
  let settings ← Run.ofResult .invalid (Settings.ofRoot root servicePath)
  let source := settings.interface.source
  Run.report [⟨.debug, .settings,
    "Loaded configuration " ++ path.toString ++ " (schema " ++ source.kind.name ++ ": "
      ++ source.path.toString ++ ")"⟩]
  return ⟨path, ← Run.ofResult .invalid (Settings.readServiceName root), settings⟩

/-- Reads the settings in a configuration file. -/
def loadService (path : Path) (directory? : Option String) : Run SettingsFileError Service := do
  let files ← Run.files
  if !(← Run.ofResult .unreadable (files.pathExists path)) then throw (.notFound path)
  let bytes ← Run.ofResult .unreadable (files.read path)
  let text ← Run.ofResult .notUtf8 (Utf8.decodeLines bytes)
  let value ← Run.ofResult (.malformed text) (load text)
  let root ← Run.ofResult .invalid (Settings.readRoot value)
  readService path (← Run.ofResult .unreadable (servicePathOf files path directory?)) root

/-! ## Placeholders -/

/-- The name of a configuration file, if none is given. -/
def defaultSettingsName : String := "serverless.yml"

/-- A configuration file to fill in. -/
def placeholder : String :=
  "# Service configuration template for appsync-lambda-schema.
# Replace every <REQUIRED> placeholder before running extract, validate or generate-resources.
# Replace <OPTIONAL> placeholders only when your setup needs them.

service: \"<REQUIRED>\"

functions: \x7b\x7d
  # Existing functions are kept; one function per @AWSLambda field is added.

custom:
  appSync:
    name: \"<REQUIRED>\"
    authenticationType: API_KEY
    # Choose exactly one schema source (schemaDir wins when both are set).
    # schemaDir: every *.graphql file below this directory is merged.
    schemaDir: \"<REQUIRED>\"
    # schema: single annotated schema file.
    # schema: \"<OPTIONAL>\"
    # IAM role AppSync assumes to invoke the generated Lambda data sources.
    serviceRole: \"<OPTIONAL>\"
    # Existing data sources and mapping templates are kept ahead of generated ones.
    dataSources: []
    mappingTemplates: []
"

/-- Why a placeholder is not written. -/
inductive PlaceholderError where
  | exists (path : Path)
  | unwritable (error : FileError)
deriving DecidableEq, Repr, Inhabited

/-- The wording of the error of a placeholder. -/
def PlaceholderError.message : PlaceholderError → String
  | .exists path => "Service configuration file already exists: " ++ path.toString
  | .unwritable error => error.message

/-- Writes a placeholder where nothing is yet, and gives its absolute path. -/
def writePlaceholder (path : Path) : Run PlaceholderError Path := do
  let files ← Run.files
  let place := files.resolve path
  if ← Run.ofResult .unwritable (files.pathExists path) then throw (.exists place)
  Run.mapError .unwritable (Run.write path placeholder)
  return place

end ResolverWiring
