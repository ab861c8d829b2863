import ResolverWiring.Files.Path
import ResolverWiring.Text.Quoted

/-!
# `ResolverWiring.Files.Tree` — a tree of files

A tree of files is a value: a file with its bytes, or a directory with its entries, which stand in the
order in which they are listed. There are no links, so the place of a file is the list of names that
lead to it.

## Contents

* `Node`, `Node.get?`, `Node.put`, `Node.remove`;
* `FileError`, why a file cannot be used;
* `FileSystem`: a tree and the working directory, with `locate`, which walks a path;
* what can be asked of a path (`status`, `isFile`, `read`), and changed (`write`, `makeDirectory`);
* `filesBelow`, all files of a directory, and `checkSearch`, whether they can be searched for.
-/

namespace ResolverWiring.Files

open Text

/-! ## Trees -/

/-- A file, or a directory. -/
inductive Node where
  | file (bytes : ByteArray)
  | directory (entries : List (String × Node))
deriving Inhabited

namespace Node

/-- The entry of a directory with this name. -/
def entry? (node : Node) (name : String) : Option Node :=
  match node with
  | file _ => none
  | directory entries => entries.lookup name

/-- The node that names lead to. -/
def get? (node : Node) : List String → Option Node
  | [] => some node
  | name :: names => (node.entry? name).bind (·.get? names)

/-- Whether a node is a directory. -/
def isDirectory : Node → Bool
  | file _ => false
  | directory _ => true

/-- Entries with one more, which takes the place of one with the same name. -/
def putEntry (entries : List (String × Node)) (name : String) (node : Node) : List (String × Node) :=
  match entries with
  | [] => [(name, node)]
  | (other, old) :: others =>
    if other = name then (name, node) :: others else (other, old) :: putEntry others name node

/-- The tree with a node put where names lead to. Only the last of them need not be there; if another one
is missing, nothing changes. -/
def put (tree : Node) (names : List String) (node : Node) : Node :=
  match names with
  | [] => node
  | [name] =>
    match tree with
    | file _ => tree
    | directory entries => directory (putEntry entries name node)
  | name :: others =>
    match tree with
    | file _ => tree
    | directory entries =>
      match entries.lookup name with
      | none => tree
      | some inner => directory (putEntry entries name (inner.put others node))

/-- The tree without the node that names lead to. -/
def remove (tree : Node) (names : List String) : Node :=
  match names with
  | [] => tree
  | [name] =>
    match tree with
    | file _ => tree
    | directory entries => directory (entries.filter (·.1 != name))
  | name :: others =>
    match tree with
    | file _ => tree
    | directory entries =>
      match entries.lookup name with
      | none => tree
      | some inner => directory (putEntry entries name (inner.remove others))

mutual

/-- The names that lead to each node below this one, each directory in front of what it holds. -/
def descendants : Node → List (List String × Node)
  | file _ => []
  | directory entries => entryDescendants entries

/-- The names that lead to entries and to the nodes below them. -/
def entryDescendants : List (String × Node) → List (List String × Node)
  | [] => []
  | (name, node) :: others =>
    ([name], node) :: (descendants node).map (fun (names, inner) => (name :: names, inner))
      ++ entryDescendants others

end

mutual

/-- The names that lead to what a search for files with certain names looks at below a node, in order: each
directory, the entries of it with such names, and what is looked at in the directories among its entries. -/
def searched (wanted : String → Bool) : Node → List (List String)
  | file _ => []
  | directory entries =>
    [] :: (entries.filter (wanted ·.1)).map ([·.1]) ++ entriesSearched wanted entries

/-- The names that lead to what a search looks at below entries. -/
def entriesSearched (wanted : String → Bool) : List (String × Node) → List (List String)
  | [] => []
  | (name, node) :: others => (searched wanted node).map (name :: ·) ++ entriesSearched wanted others

end

end Node

/-! ## Errors -/

/-- Why a path cannot be used. -/
inductive FileProblem where
  | missing
  | exists
  | notDirectory
  | isDirectory
  | nameTooLong
deriving DecidableEq, Repr, Inhabited

/-- The number of a problem. -/
def FileProblem.number : FileProblem → Nat
  | .missing => 2
  | .exists => 17
  | .notDirectory => 20
  | .isDirectory => 21
  | .nameTooLong => 36

/-- The wording of a problem. -/
def FileProblem.text : FileProblem → String
  | .missing => "No such file or directory"
  | .exists => "File exists"
  | .notDirectory => "Not a directory"
  | .isDirectory => "Is a directory"
  | .nameTooLong => "File name too long"

/-- Why files cannot be used: a path that no file can have, or a problem with the files at a path. -/
inductive FileError where
  | nullInPath
  | failed (problem : FileProblem) (path : Path)
deriving DecidableEq, Repr, Inhabited

/-- The wording of a file error. -/
def FileError.message : FileError → String
  | .nullInPath => "embedded null byte"
  | .failed problem path =>
    "[Errno " ++ toString problem.number ++ "] " ++ problem.text ++ ": " ++ quoted path.toString

/-- Whether something is missing. -/
def FileError.isMissing : FileError → Bool
  | .failed .missing _ => true
  | _ => false

/-! ## File systems -/

/-- A tree of files, and the directory in it from which paths without a root are seen. -/
structure FileSystem where
  root : Node
  directory : List String
deriving Inhabited

namespace FileSystem

/-- Names have at most this many bytes. -/
def maxNameBytes : Nat := 255

/-- The texts of paths have at most this many bytes. -/
def maxPathBytes : Nat := 4095

/-- Where a walk along names leads to, from a directory on. Every name on the way is looked up in a
directory that is there; the last one may be missing. -/
def walk (root : Node) (here : List String) : List String → Except FileProblem (List String)
  | [] => .ok here
  | name :: names =>
    match root.get? here with
    | none => .error .missing
    | some (.file _) => .error .notDirectory
    | some (.directory _) =>
      if maxNameBytes < name.utf8ByteSize then .error .nameTooLong
      else walk root (Path.step here name) names

/-- Where a path leads to. -/
def locate (fs : FileSystem) (path : Path) : Except FileError (List String) :=
  if path.hasNull then .error .nullInPath
  else if maxPathBytes < path.toString.utf8ByteSize then .error (.failed .nameTooLong path)
  else (walk fs.root (if path.isAbsolute then [] else fs.directory) path.names).mapError (.failed · path)

/-- What a path leads to. -/
def status (fs : FileSystem) (path : Path) : Except FileError Node := do
  match fs.root.get? (← fs.locate path) with
  | some node => return node
  | none => .error (.failed .missing path)

/-- What a path leads to, if anything. Only of a path that is too long it is not known whether
something is there. -/
def find (fs : FileSystem) (path : Path) : Except FileError (Option Node) :=
  match fs.status path with
  | .ok node => .ok (some node)
  | .error (.failed .nameTooLong path) => .error (.failed .nameTooLong path)
  | .error _ => .ok none

/-- Whether a path leads to something. -/
def pathExists (fs : FileSystem) (path : Path) : Except FileError Bool :=
  (fs.find path).map (·.isSome)

/-- Whether a path leads to a directory. -/
def isDirectory (fs : FileSystem) (path : Path) : Except FileError Bool :=
  (fs.find path).map (·.any (·.isDirectory))

/-- Whether a path leads to a file. -/
def isFile (fs : FileSystem) (path : Path) : Except FileError Bool :=
  (fs.find path).map (·.any fun node => !node.isDirectory)

/-- The bytes of a file. -/
def read (fs : FileSystem) (path : Path) : Except FileError ByteArray := do
  match ← fs.status path with
  | .file bytes => return bytes
  | .directory _ => .error (.failed .isDirectory path)

/-- The absolute path that a path denotes, whatever is there. -/
def resolve (fs : FileSystem) (path : Path) : Path := Path.resolve ⟨.single, fs.directory⟩ path

/-- The file system with a file of these bytes at a path; the directory of it must be there. -/
def write (fs : FileSystem) (path : Path) (bytes : ByteArray) : Except FileError FileSystem := do
  let place ← fs.locate path
  match fs.root.get? place with
  | some (.directory _) => .error (.failed .isDirectory path)
  | _ => return { fs with root := fs.root.put place (.file bytes) }

/-- The file system with an empty directory at a path, where nothing may be yet. -/
def makeDirectory (fs : FileSystem) (path : Path) : Except FileError FileSystem := do
  let place ← fs.locate path
  match fs.root.get? place with
  | some _ => .error (.failed .exists path)
  | none => return { fs with root := fs.root.put place (.directory []) }

/-- The file system with a directory at a path; one that is there already will do. -/
def ensureDirectory (fs : FileSystem) (path : Path) : Except FileError FileSystem :=
  match fs.makeDirectory path with
  | .ok changed => .ok changed
  | .error e =>
    if e.isMissing then .error e
    else do
      if ← fs.isDirectory path then return fs else .error e

/-- The file system with directories at a path and at all paths that lead to it, and the error that
stopped before all of them were there. -/
def ensureDirectories (fs : FileSystem) (path : Path) : Nat → FileSystem × Option FileError
  | 0 => (fs, none)
  | bound + 1 =>
    match fs.ensureDirectory path with
    | .ok changed => (changed, none)
    | .error e =>
      if e.isMissing && path.parent != path then
        match ensureDirectories fs path.parent bound with
        | (changed, some e) => (changed, some e)
        | (changed, none) =>
          match changed.ensureDirectory path with
          | .ok changed => (changed, none)
          | .error e => (changed, some e)
      else (fs, some e)

/-- Makes a directory and the directories that lead to it. -/
def makeDirectories (fs : FileSystem) (path : Path) : FileSystem × Option FileError :=
  fs.ensureDirectories path (path.names.length + 1)

/-- The file system without the file at a path. -/
def remove (fs : FileSystem) (path : Path) : Except FileError FileSystem := do
  let place ← fs.locate path
  return { fs with root := fs.root.remove place }

/-- The files below the directory at a path, by the names that lead to them from there. -/
def filesBelow (fs : FileSystem) (path : Path) : List (List String × ByteArray) :=
  match fs.status path with
  | .error _ => []
  | .ok node =>
    node.descendants.filterMap fun (names, inner) =>
      match inner with
      | .file bytes => some (names, bytes)
      | .directory _ => none

/-- The paths that a search for files with certain names looks at below the directory at a path. -/
def searchedPaths (fs : FileSystem) (wanted : String → Bool) (path : Path) : List Path :=
  match fs.status path with
  | .error _ => []
  | .ok node => (node.searched wanted).map fun names => path.join ⟨.none, names⟩

/-- Fails at the first of these paths that is too long. -/
def checkSearch (fs : FileSystem) (wanted : String → Bool) (path : Path) : Except FileError Unit :=
  match (fs.searchedPaths wanted path).find? fun found => maxPathBytes < found.toString.utf8ByteSize with
  | none => .ok ()
  | some found => .error (.failed .nameTooLong found)

end FileSystem

end ResolverWiring.Files
