import ResolverWiring.Configuration
import ResolverWiring.Service.Run

/-!
# `ResolverWiring.Service.Source` — schema texts from files

A schema is one file, or all files with a given ending below a directory: its fragments. They are
taken in the order of their paths as texts, so the order in which directories list them does not
matter.
-/

namespace ResolverWiring

open Files Text

/-- Why there is no schema text. -/
inductive SourceError where
  | directoryNotFound (path : Path)
  | noFragments (path : Path)
  | fileNotFound (path : Path)
  | unreadable (error : FileError)
  | notUtf8 (path : Path) (reason : Utf8.Reason)
  | malformed (error : FragmentError)
deriving Repr, Inhabited

/-- The ending of the names of fragments. -/
def fragmentEnding : String := ".graphql"

/-- The wording of a source error. -/
def SourceError.message : SourceError → String
  | .directoryNotFound path => "Schema directory not found: " ++ path.toString
  | .noFragments path => "No *" ++ fragmentEnding ++ " files found in " ++ path.toString
  | .fileNotFound path => "Schema file not found: " ++ path.toString
  | .unreadable error => error.message
  | .notUtf8 path reason =>
    "Schema file is not valid UTF-8: " ++ path.toString ++ ": " ++ reason.message
  | .malformed error => error.message

/-- The text of a schema file. -/
def decodeSchema (path : Path) (bytes : ByteArray) : Except SourceError String :=
  (Utf8.decodeLines bytes).mapError fun fault => .notUtf8 path fault.reason

/-- Whether a name is that of a fragment. -/
def isFragmentName (name : String) : Bool := name.endsWith fragmentEnding

/-- Whether the names that lead to a file are those of a fragment. -/
def isFragment (names : List String) : Bool := names.getLast?.any isFragmentName

/-- The text by which fragments are ordered. -/
def orderKey (names : List String) : String := String.intercalate "/" names

/-- The fragments below a directory, by the names that lead to them from there, in order. -/
def fragmentFiles (files : FileSystem) (directory : Path) : List (List String × ByteArray) :=
  ((files.filesBelow directory).filter (isFragment ·.1)).mergeSort
    fun a b => decide (orderKey a.1 ≤ orderKey b.1)

/-- The fragments of a schema below a directory, each with its text. -/
def collectFragments (directory : Path) : Run SourceError (List SchemaFragment) := do
  let files ← Run.files
  if !(← Run.ofResult .unreadable (files.isDirectory directory)) then
    throw (.directoryNotFound directory)
  Run.ofResult .unreadable (files.checkSearch isFragmentName directory)
  let found := fragmentFiles files directory
  if found.isEmpty then throw (.noFragments directory)
  Run.report [⟨.debug, .source,
    "Collected " ++ toString found.length ++ " schema fragment(s) from " ++ directory.toString⟩]
  Run.ofResult id <| found.mapM fun (names, bytes) => do
    let path := directory.join ⟨.none, names⟩
    return ⟨path, ← decodeSchema path bytes⟩

/-- The text of a schema in one file. -/
def readSchemaFile (path : Path) : Run SourceError String := do
  let files ← Run.files
  if !(← Run.ofResult .unreadable (files.isFile path)) then throw (.fileNotFound path)
  let bytes ← Run.ofResult .unreadable (files.read path)
  Run.ofResult id (decodeSchema path bytes)

/-- The annotated schema text of a source. -/
def loadSchema (source : SchemaSource) : Run SourceError String := do
  match source.kind with
  | .directory =>
    let fragments ← collectFragments source.path
    Run.report (mergeLog fragments)
    Run.ofResult .malformed (mergeFragments fragments)
  | .file => readSchemaFile source.path

end ResolverWiring
