/-!
# `ResolverWiring.Files.Path` — file paths

A path is a root and the names behind it. Repeated slashes and `.` are dropped when a path is read;
`..` stays, since what it means depends on the directory that the path is resolved against.

`resolve` walks a path from an absolute directory: there `..` drops the last name, and at the root it
has no effect.
-/

namespace ResolverWiring.Files

/-- Where a path starts. Exactly two slashes in front are a root of their own. -/
inductive Root where
  | none
  | single
  | double
deriving DecidableEq, Repr, Inhabited

/-- The slashes of a root. -/
def Root.text : Root → String
  | .none => ""
  | .single => "/"
  | .double => "//"

/-- A file path; none of its names is empty or `.`, and none holds a slash. -/
structure Path where
  root : Root
  names : List String
deriving DecidableEq, Repr, Inhabited

namespace Path

/-- The pieces of a text between slashes. -/
def splitSlashes : List Char → List (List Char)
  | [] => [[]]
  | '/' :: cs => [] :: splitSlashes cs
  | c :: cs =>
    match splitSlashes cs with
    | piece :: others => (c :: piece) :: others
    | [] => [[c]]

/-- The root of a path text. -/
def rootOf : List Char → Root
  | '/' :: '/' :: '/' :: _ => .single
  | '/' :: '/' :: _ => .double
  | '/' :: _ => .single
  | _ => .none

/-- Whether a piece between slashes is kept as a name. -/
def isName (piece : String) : Bool := piece != "" && piece != "."

/-- The path that a text denotes. -/
def ofString (text : String) : Path :=
  ⟨rootOf text.toList, ((splitSlashes text.toList).map String.ofList).filter isName⟩

/-- The text of a path; a path without names and root is `.`. -/
def toString (p : Path) : String :=
  if p.root = .none && p.names.isEmpty then "."
  else p.root.text ++ String.intercalate "/" p.names

/-- Whether the character with code zero occurs in a path. No file has such a path. -/
def hasNull (p : Path) : Bool := p.names.any (·.contains '\x00')

/-- Whether the path starts at a root. -/
def isAbsolute (p : Path) : Bool := p.root != .none

/-- The path `q` seen from the directory `p`; an absolute path is seen alike from everywhere. -/
def join (p q : Path) : Path := if q.isAbsolute then q else ⟨p.root, p.names ++ q.names⟩

/-- The path of the directory that holds this one; a path without names is its own. -/
def parent (p : Path) : Path := ⟨p.root, p.names.dropLast⟩

/-- One step of a walk. -/
def step (directory : List String) (name : String) : List String :=
  if name = ".." then directory.dropLast else directory ++ [name]

/-- The names of the absolute path that a walk along `names` leads to. -/
def walk (directory names : List String) : List String := names.foldl step directory

/-- The absolute path that this one denotes, seen from an absolute directory. -/
def resolve (directory p : Path) : Path :=
  ⟨.single, walk [] (directory.join p).names⟩

end Path

end ResolverWiring.Files
