import ResolverWiring.CommandLine.Command
import ResolverWiring.Service.ResourceFile
import ResolverWiring.Service.Validity
import ResolverWiring.Text.TerminalCode

/-!
# `ResolverWiring.CommandLine.Outcome` — what running the program does

Running the program on files gives an outcome and changed files. Errors in what the user has written
are reported; a few others are not caught, and stop the program (`CommandError.isReported`).

Log lines stand in front of the message of an error, and only there: they change nothing else. What
commands print and the messages of their errors go without terminal codes.
-/

namespace ResolverWiring.CommandLine

open Files Text

/-! ## Commands -/

/-- Why a command fails. -/
inductive CommandError where
  | value (error : FileError)
  | settings (error : SettingsFileError)
  | placeholder (error : PlaceholderError)
  | processing (error : ProcessingError)
  | validity (error : ServiceValidityError)
deriving Repr, Inhabited

/-- The wording of the error of a command. -/
def CommandError.message : CommandError → String
  | .value error => error.message
  | .settings error => error.message
  | .placeholder error => error.message
  | .processing error => error.message
  | .validity (.processing error) => error.message
  | .validity (.invalid error) => error.message

/-- Whether the error of a command is reported; others stop the program. -/
def CommandError.isReported : CommandError → Bool
  | .value _ => false
  | .settings (.unreadable _) => false
  | .settings (.notUtf8 _) => false
  | .settings (.malformed _ (.scalar _)) => false
  | .settings (.invalid .nullInPath) => false
  | .placeholder (.unwritable .nullInPath) => false
  | .processing (.resourcesUnwritable .nullInPath) => false
  | .processing (.resourcesUnprintable _) => false
  | .processing .resourcesEndless => false
  | .validity (.invalid (.malformed _)) => false
  | .validity (.invalid (.unbuildable _ _ _)) => false
  | _ => true

/-- The settings of a command. -/
def loadSettings (config : String) (service? : Option String) : Run CommandError Settings := do
  return (← Run.mapError .settings (loadService (.ofString config) service?)).settings

/-- Runs a command, and gives the lines that it prints. -/
def Command.run (templates : Path) : Command → Run CommandError (List String)
  | .extract config service? => do
    let settings ← loadSettings config service?
    let processed ← Run.mapError .processing (processSchema settings)
    return processed.bindings.map (fun b => b.qualifiedName ++ ": " ++ b.handler)
      ++ [processed.path.toString]
  | .generateConfig output => do
    let path ← Run.mapError .placeholder (writePlaceholder (.ofString output))
    return [path.toString]
  | .generateResources config service? output role? => do
    let settings ← loadSettings config service?
    let generated ← Run.mapError .processing
      (ResolverWiring.generateResources settings (.ofString output) role? templates)
    return [generated.path.toString]
  | .validate config service? => do
    let settings ← loadSettings config service?
    Run.mapError .validity (validateService settings)
    return ["Schema is valid."]

/-! ## The program -/

/-- How the program ends. -/
inductive Ending where
  | success
  | failure
  | misuse
  /-- An error that is not caught. -/
  | stopped (error : CommandError)
deriving Repr, Inhabited

/-- What the program has printed, and how it has ended. -/
structure Outcome where
  ending : Ending
  output : String
  messages : String
deriving Repr, Inhabited

/-- The exit code, unless an error has stopped the program. -/
def Ending.code? : Ending → Option Nat
  | .success => some 0
  | .failure => some 1
  | .misuse => some 2
  | .stopped _ => none

/-- What is printed of a line. -/
def shown (line : String) : String := String.ofList (withoutCodes line.toList)

/-- The outcome of a command that has run, with its log lines. -/
def Outcome.ofResult (log : String) : Except CommandError (List String) → Outcome
  | .ok lines => ⟨.success, pageText (lines.map shown), log⟩
  | .error error =>
    if error.isReported then ⟨.failure, "", log ++ pageText [shown error.message]⟩
    else ⟨.stopped error, "", log⟩

/-- Does what arguments ask for. `templates` is the directory of the template texts. -/
def Invocation.execute (templates : Path) (files : FileSystem) : Invocation → Outcome × FileSystem
  | page text => (⟨.success, text, ""⟩, files)
  | unusable error => (⟨.stopped (.value error), "", ""⟩, files)
  | misuse => (⟨.misuse, "", pageText ["Usage: " ++ program.usage]⟩, files)
  | run verbose command =>
    let (result, after) := command.run templates ⟨files, []⟩
    let log := if verbose then pageText (after.log.reverse.map (·.line)) else ""
    (.ofResult log result, after.files)

/-- Runs the program with arguments. -/
def execute (templates : Path) (arguments : List String) (files : FileSystem) :
    Outcome × FileSystem :=
  (Invocation.ofArguments files arguments).execute templates files

end ResolverWiring.CommandLine
