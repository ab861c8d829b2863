import ResolverWiring.CommandLine.Help
import ResolverWiring.Service.SettingsFile

/-!
# `ResolverWiring.CommandLine.Command` — the commands of the program

## Contents

* the program and its four commands, with their options;
* `Command`, a command with its values;
* `Invocation.ofArguments`, what arguments ask for.
-/

namespace ResolverWiring.CommandLine

open Files

/-! ## Options -/

/-- The option for help. -/
def helpOption : OptionSpec :=
  ⟨"help", some 'h', .nothing, false, none, "Show this message and exit."⟩

/-- The option for the version. -/
def versionOption : OptionSpec :=
  ⟨"version", none, .nothing, false, none, "Show the version and exit."⟩

/-- The option for log lines. -/
def verboseOption : OptionSpec :=
  ⟨"verbose", none, .nothing, false, none, "Log debug details to stderr."⟩

/-- The option for the configuration file. -/
def configOption : OptionSpec :=
  ⟨"config", none, .path, true, none, "Path to the serverless.yml service configuration"⟩

/-- The option for the directory of the service. -/
def serviceOption : OptionSpec :=
  ⟨"service-path", none, .directory, false, none,
    "Service directory; defaults to the directory of the configuration file"⟩

/-- The option for the placeholder file. -/
def placeholderOption : OptionSpec :=
  ⟨"output", none, .path, false, some defaultSettingsName,
    "Path to the serverless.yml configuration template to write"⟩

/-- The option for the file of resources. -/
def resourcesOption : OptionSpec :=
  ⟨"output", none, .file, true, none, "Path to the generated functions and AppSync resources YAML"⟩

/-- The option for the role of data sources. -/
def roleOption : OptionSpec :=
  ⟨"service-role", none, .text, false, none,
    "IAM role used by the Lambda data sources (overrides custom.appSync.serviceRole)"⟩

/-! ## Commands -/

/-- The program. -/
def program : CommandSpec :=
  ⟨"appsync-lambda-schema", "Turn @AWSLambda schema directives into AppSync Lambda resolvers.",
    [versionOption, verboseOption, helpOption]⟩

/-- The version of the program. -/
def version : String := "0.1.0"

/-- The kinds of commands. -/
inductive CommandKind where
  | extract
  | generateConfig
  | generateResources
  | validate
deriving DecidableEq, Repr, Inhabited

/-- The options and the purpose of a kind of command. -/
def CommandKind.spec : CommandKind → CommandSpec
  | .extract =>
    ⟨"extract", "Write the schema without @AWSLambda directives and print its path.",
      [configOption, serviceOption, helpOption]⟩
  | .generateConfig =>
    ⟨"generate-config", "Generate a placeholder service configuration with guidance comments.",
      [placeholderOption, helpOption]⟩
  | .generateResources =>
    ⟨"generate-resources",
      "Generate one function, data source and mapping template per @AWSLambda field.",
      [configOption, serviceOption, resourcesOption, roleOption, helpOption]⟩
  | .validate =>
    ⟨"validate", "Validate the GraphQL schema of the service.",
      [configOption, serviceOption, helpOption]⟩

/-- All kinds of commands, in the order of their names. -/
def commandKinds : List CommandKind := [.extract, .generateConfig, .generateResources, .validate]

/-- A command with its values. -/
inductive Command where
  | extract (config : String) (service? : Option String)
  | generateConfig (output : String)
  | generateResources (config : String) (service? : Option String) (output : String)
    (role? : Option String)
  | validate (config : String) (service? : Option String)
deriving DecidableEq, Repr, Inhabited

/-- The configuration file and the directory of the service that a command works on. -/
def Command.service? : Command → Option (String × Option String)
  | .extract config service? => some (config, service?)
  | .generateConfig _ => none
  | .generateResources config service? _ _ => some (config, service?)
  | .validate config service? => some (config, service?)

/-- The value of an option, or its default. -/
def Reading.valueOf? (r : Reading) (o : OptionSpec) : Option String := (r.value? o.name).or o.default?

/-- The command that has been read, if the options that it needs are given. -/
def CommandKind.command? (kind : CommandKind) (r : Reading) : Option Command :=
  let service? := r.valueOf? serviceOption
  match kind with
  | .extract => (r.valueOf? configOption).map (.extract · service?)
  | .generateConfig => (r.valueOf? placeholderOption).map .generateConfig
  | .generateResources => do
    let config ← r.valueOf? configOption
    let output ← r.valueOf? resourcesOption
    return .generateResources config service? output (r.valueOf? roleOption)
  | .validate => (r.valueOf? configOption).map (.validate · service?)

/-! ## Invocations -/

/-- What arguments ask for. -/
inductive Invocation where
  /-- To show a text. -/
  | page (text : String)
  /-- Nothing that the program can do. -/
  | misuse
  /-- To look at files that cannot be. -/
  | unusable (error : FileError)
  /-- To run a command, and to show log lines if `verbose`. -/
  | run (verbose : Bool) (command : Command)
deriving DecidableEq, Repr, Inhabited

/-- The page that the first option for a page asks for. -/
def Reading.page? (r : Reading) (help : String) : Option String :=
  r.given.findSome? fun given =>
    if given.name = helpOption.name then some help
    else if given.name = versionOption.name then
      some (program.name ++ ", version " ++ version ++ "\n")
    else none

/-- The help page of the program. -/
def helpPage : String := programPage program (commandKinds.map (·.spec))

namespace Invocation

/-- What the arguments behind the name of a command ask for. -/
def ofCommand (files : FileSystem) (verbose : Bool) (kind : CommandKind) (arguments : List String) :
    Invocation :=
  match readArguments kind.spec.options true arguments with
  | none => misuse
  | some reading =>
    match reading.page? (commandPage program.name kind.spec) with
    | some text => page text
    | none =>
      match reading.check kind.spec.options files, kind.command? reading with
      | .error .unfit, _ => misuse
      | .error (.unusable error), _ => unusable error
      | .ok (), some command => if reading.rest.isEmpty then run verbose command else misuse
      | .ok (), none => misuse

/-- What a word that names no command asks for. An option behind `--` is read once more. -/
def ofUnknown (arguments : List String) : Invocation :=
  match (readArguments program.options false arguments).bind (·.page? helpPage) with
  | some text => page text
  | none => misuse

/-- What arguments ask for. -/
def ofArguments (files : FileSystem) (arguments : List String) : Invocation :=
  match readArguments program.options false arguments with
  | none => misuse
  | some reading =>
    match reading.page? helpPage with
    | some text => page text
    | none =>
      match reading.rest with
      | [] => misuse
      | name :: others =>
        match commandKinds.find? (·.spec.name == name) with
        | some kind => ofCommand files (reading.value? verboseOption.name).isSome kind others
        | none => ofUnknown (name :: others)

end Invocation

end ResolverWiring.CommandLine
