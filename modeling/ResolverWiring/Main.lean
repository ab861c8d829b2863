import ResolverWiring.CommandLine.Outcome

/-!
# `ResolverWiring.Main` — the program

Reads the files that the arguments name into a tree, lets the arguments act on the tree, and writes
back what has changed.
-/

namespace ResolverWiring.Main

open Files CommandLine

/-- The text of the absolute path that names lead to. -/
def textOf (names : List String) : String := (⟨.single, names⟩ : Path).toString

/-- The file or directory at a path, if there is one. Of a directory, the entries are read only if
`deep`, and of these only directories and the fragments of a schema. -/
partial def readNode (deep : Bool) (path : String) : IO (Option Node) := do
  match ← (do return some (← IO.FS.realPath path)).catchExceptions fun _ => return none with
  | none => return none
  | some place =>
    if ← place.isDir then
      if !deep then return some (.directory [])
      let mut entries := #[]
      for entry in ← place.readDir do
        let name := entry.fileName
        if isFragment [name] || (← entry.path.isDir) then
          if let some node ← readNode true (path ++ "/" ++ name) then
            entries := entries.push (name, node)
      return some (.directory entries.toList)
    else if ← place.pathExists then return some (.file (← IO.FS.readBinFile place))
    else return none

/-- The tree with what is at the place that names lead to, and the directories on the way. -/
def addPlace (deep : Bool) (tree : Node) (names : List String) : IO Node := do
  let mut tree := tree
  for length in List.range (names.length + 1) do
    let front := names.take length
    let whole := deep && length == names.length
    if whole || (tree.get? front).isNone then
      match ← readNode whole (textOf front) with
      | some node => tree := tree.put front node
      | none => return tree
  return tree

/-- The paths that an argument may name. -/
def pathsOf (argument : String) : List Path :=
  .ofString argument :: ((splitAttached argument).2.map Path.ofString).toList

/-- The files that arguments name, and those that the settings in them name. -/
def readFiles (directory : List String) (arguments : List String) : IO FileSystem := do
  let here := FileSystem.mk (.directory []) directory
  let mut tree ← addPlace false here.root directory
  for path in Path.ofString defaultSettingsName :: arguments.flatMap pathsOf do
    tree ← addPlace false tree (here.resolve path).names
  let files := { here with root := tree }
  let service? := match Invocation.ofArguments files arguments with
    | .run _ command => command.service?
    | _ => none
  let settings? := service?.bind fun (config, directory?) =>
    (loadService (.ofString config) directory? ⟨files, []⟩).1.toOption
  match settings? with
  | none => return files
  | some service =>
    let settings := service.settings
    let source := settings.interface.source
    tree ← addPlace (source.kind = .directory) tree (here.resolve source.path).names
    tree ← addPlace false tree (here.resolve settings.cleanSchemaPath).names
    return { files with root := tree }

/-- Writes what is in a tree and was not in an earlier one. -/
def writeChanges (before after : Node) : IO Unit := do
  for (names, node) in after.descendants do
    match node, before.get? names with
    | .directory _, none => IO.FS.createDir (textOf names)
    | .file bytes, some (.file old) =>
      if bytes != old then IO.FS.writeBinFile (textOf names) bytes
    | .file bytes, _ => IO.FS.writeBinFile (textOf names) bytes
    | .directory _, some _ => continue

/-- The directory of the template texts, beside the program. -/
def templatesDirectory : IO Path := do
  return (Path.ofString (toString (← IO.appPath))).parent.join (.ofString "templates")

end ResolverWiring.Main

open ResolverWiring ResolverWiring.Main ResolverWiring.CommandLine in
/-- Runs the program. -/
def main (arguments : List String) : IO UInt32 := do
  let directory := Files.Path.ofString (toString (← IO.currentDir))
  let files ← readFiles directory.names arguments
  let (outcome, after) := execute (← templatesDirectory) arguments files
  writeChanges files.root after.root
  (← IO.getStdout).putStr outcome.output
  (← IO.getStderr).putStr outcome.messages
  match outcome.ending with
  | .success => return 0
  | .failure => return 1
  | .misuse => return 2
  | .stopped error =>
    (← IO.getStderr).putStr (error.message ++ "\n")
    return 1
