import ResolverWiring.Yaml.Node

/-!
# `ResolverWiring.Yaml.Node.Outer` — mappings merged into what stands inside them

A merge mark can name a mapping that it stands in. The alias is a leaf there, and the entries that it
brings are known only when the document is complete. `withOuter` puts a mapping with these entries in
place of the leaf.

A part of the outer mapping in which there is no leaf comes to stand inside as it is, and any other
part as a leaf for it, since it may hold the very place where it comes to stand. A mapping that is
merged into itself, or into one of those that are merged into it, brings nothing: its entries are all
there.
-/

namespace ResolverWiring.Yaml

namespace Node

/-- Whether no alias in a tree is a leaf. -/
def isClosed (node : Node) : Bool := node.nodes.all (·.target?.isNone)

/-! ## Leaves that are merged -/

mutual

/-- The leaves that merge marks among entries name, and those in the mappings that these bring in. -/
def mergedLeaves : List (Node × Node) → List NodeNumber
  | [] => []
  | (key, value) :: others =>
    if key.tag = .core .merge then leavesOf value ++ mergedLeaves others else mergedLeaves others

/-- The leaves that the value of a merge mark names. -/
def leavesOf : Node → List NodeNumber
  | scalar _ _ _ _ => []
  | sequence _ _ items _ => leavesOfAll items
  | mapping _ _ entries _ => mergedLeaves entries
  | enclosing number _ _ _ _ => [number]

/-- The leaves that a sequence of mappings names. -/
def leavesOfAll : List Node → List NodeNumber
  | [] => []
  | item :: others => leavesOf item ++ leavesOfAll others

end

/-- Whether some merge mark in a document names a leaf. -/
def isMergedIn (root leaf : Node) : Bool :=
  root.nodes.any fun node => (mergedLeaves node.entries).contains leaf.number

/-! ## Entries from outside -/

/-- A leaf for a node. The numbers from `next` on are free, and the node has one leaf wherever it is
needed. -/
def asLeaf (next : NodeNumber) (node : Node) : Node :=
  .enclosing (next + node.number) (node.target?.getD node.number) node.tag node.kind node.mark

/-- What stands for a part of a mapping where this is merged into what stands inside it. -/
def seenInside (next : NodeNumber) (node : Node) : Node :=
  if node.isClosed then node else node.asLeaf next

/-- The entries that a mapping brings into what stands inside it. Its own merge marks count if there is
no leaf in what they bring. -/
def outerEntries (next : NodeNumber) : List (Node × Node) → List (Node × Node)
  | [] => []
  | (key, value) :: others =>
    if key.tag = .core .merge && !value.isClosed then outerEntries next others
    else (key.seenInside next, value.seenInside next) :: outerEntries next others

/-- The mapping that comes in place of a leaf that a merge mark names; other leaves stay. -/
def filled (next : NodeNumber) (root leaf : Node) : Node :=
  match leaf with
  | enclosing number target tag .mapping mark =>
    match root.nodes.find? (·.number == target) with
    | some (mapping _ _ entries _) =>
      if root.isMergedIn leaf then
        let brought :=
          if (mergedLeaves entries).contains number then [] else outerEntries next entries
        mapping number tag brought mark
      else leaf
    | _ => leaf
  | _ => leaf

mutual

/-- A tree with others in place of its leaves. -/
def mapLeaves (f : Node → Node) : Node → Node
  | node@(scalar _ _ _ _) => node
  | sequence number tag items mark => sequence number tag (mapItemLeaves f items) mark
  | mapping number tag entries mark => mapping number tag (mapEntryLeaves f entries) mark
  | node@(enclosing _ _ _ _ _) => f node

/-- Trees with others in place of their leaves. -/
def mapItemLeaves (f : Node → Node) : List Node → List Node
  | [] => []
  | item :: others => mapLeaves f item :: mapItemLeaves f others

/-- Pairs of trees with others in place of their leaves. -/
def mapEntryLeaves (f : Node → Node) : List (Node × Node) → List (Node × Node)
  | [] => []
  | (key, value) :: others => (mapLeaves f key, mapLeaves f value) :: mapEntryLeaves f others

end

/-- A document with the entries of outer mappings where these are merged. The numbers of its nodes are
less than `next`. -/
def withOuter (next : NodeNumber) (root : Node) : Node :=
  if root.isClosed then root else root.mapLeaves (root.filled next)

end Node

end ResolverWiring.Yaml
