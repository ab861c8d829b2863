import ResolverWiring.Yaml.Error
import ResolverWiring.Yaml.Tag

/-!
# `ResolverWiring.Yaml.Node` — documents as trees

A document is a tree of scalars, sequences and mappings, each with its tag and the place where it
starts. An alias is the node that it names, so one node can occur several times in the tree. Nodes are
numbered, and nodes with the same number are the same.

An alias inside the collection that it names would make the tree endless. It is a leaf of its own
(`enclosing`), which knows the number of the collection. Parts of an outer mapping are leaves too,
where it is merged into what stands inside it.
-/

namespace ResolverWiring.Yaml

/-- The number of a node in its document. -/
abbrev NodeNumber := Nat

/-- A node of a document. -/
inductive Node where
  | scalar (number : NodeNumber) (tag : Tag) (text : List Char) (mark : Mark)
  | sequence (number : NodeNumber) (tag : Tag) (items : List Node) (mark : Mark)
  | mapping (number : NodeNumber) (tag : Tag) (entries : List (Node × Node)) (mark : Mark)
  /-- An alias inside the collection with the number `target`, whose tag, kind and place it has. -/
  | enclosing (number target : NodeNumber) (tag : Tag) (kind : NodeKind) (mark : Mark)
deriving Repr, Inhabited

namespace Node

/-- The kind of a node. -/
def kind : Node → NodeKind
  | scalar _ _ _ _ => .scalar
  | sequence _ _ _ _ => .sequence
  | mapping _ _ _ _ => .mapping
  | enclosing _ _ _ kind _ => kind

/-- The number of a node. -/
def number : Node → NodeNumber
  | scalar number _ _ _ => number
  | sequence number _ _ _ => number
  | mapping number _ _ _ => number
  | enclosing number _ _ _ _ => number

/-- The tag of a node. -/
def tag : Node → Tag
  | scalar _ tag _ _ => tag
  | sequence _ tag _ _ => tag
  | mapping _ tag _ _ => tag
  | enclosing _ _ tag _ _ => tag

/-- The place where a node starts. -/
def mark : Node → Mark
  | scalar _ _ _ mark => mark
  | sequence _ _ _ mark => mark
  | mapping _ _ _ mark => mark
  | enclosing _ _ _ _ mark => mark

/-- The number of the collection that a node names from inside. -/
def target? : Node → Option NodeNumber
  | enclosing _ target _ _ _ => some target
  | _ => none

/-- The items of a node, if it is a sequence. -/
def items : Node → List Node
  | sequence _ _ items _ => items
  | _ => []

/-- The entries of a node, if it is a mapping. -/
def entries : Node → List (Node × Node)
  | mapping _ _ entries _ => entries
  | _ => []

/-! ## All nodes -/

mutual

/-- The nodes of a tree, each one in front of those below it. -/
def nodes : Node → List Node
  | node@(scalar _ _ _ _) => [node]
  | node@(sequence _ _ items _) => node :: itemNodes items
  | node@(mapping _ _ entries _) => node :: entryNodes entries
  | node@(enclosing _ _ _ _ _) => [node]

/-- The nodes of trees. -/
def itemNodes : List Node → List Node
  | [] => []
  | item :: others => nodes item ++ itemNodes others

/-- The nodes of pairs of trees. -/
def entryNodes : List (Node × Node) → List Node
  | [] => []
  | (key, value) :: others => nodes key ++ (nodes value ++ entryNodes others)

end

end Node

end ResolverWiring.Yaml
