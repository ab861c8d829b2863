import ResolverWiring.Yaml.Node

/-!
# `ResolverWiring.Yaml.Node.Merge` — entries with merged mappings

An entry whose key is the merge mark brings the entries of other mappings into a mapping. They come in
front of its own entries, so that these count where a key occurs twice.

`mergedEntries` gives the entries of a mapping after that, and `sources` the mappings from which it
brings in entries. An outer mapping has been put in place of the leaf that names it (`withOuter`), so a
leaf that is met here names a sequence, which cannot be merged into what stands inside it.
-/

namespace ResolverWiring.Yaml

namespace Node

/-! ## Size -/

mutual

/-- The number of nodes of a tree. -/
def weight : Node → Nat
  | scalar _ _ _ _ => 1
  | sequence _ _ items _ => 1 + itemsWeight items
  | mapping _ _ entries _ => 1 + entriesWeight entries
  | enclosing _ _ _ _ _ => 1

/-- The number of nodes of a list of trees. -/
def itemsWeight : List Node → Nat
  | [] => 0
  | item :: others => item.weight + itemsWeight others

/-- The number of nodes of a list of pairs of trees. -/
def entriesWeight : List (Node × Node) → Nat
  | [] => 0
  | (key, value) :: others => key.weight + value.weight + entriesWeight others

end

theorem weight_pos (node : Node) : 0 < node.weight := by
  cases node <;> simp only [weight] <;> omega

/-! ## Merging -/

mutual

/-- The entries that merge marks bring into a mapping at a place. -/
def broughtIn (mark : Mark) : List (Node × Node) → Except Fault (List (Node × Node))
  | [] => .ok []
  | (key, value) :: others =>
    if key.tag = .core .merge then do
      let brought ← broughtBy mark value
      return brought ++ (← broughtIn mark others)
    else broughtIn mark others

/-- The entries that the value of a merge mark brings into a mapping at a place. -/
def broughtBy (mark : Mark) : Node → Except Fault (List (Node × Node))
  | mapping _ _ entries start => do
    return (← broughtIn start entries) ++ ownEntries entries
  | sequence _ _ items _ => broughtByAll mark items
  | scalar _ _ _ start =>
    .error (.within .constructingMapping mark (.notMergeable .scalar) start)
  | enclosing _ _ _ _ start => .error (.plain .recursiveNode start)

/-- The entries that a sequence of mappings brings in, those of the last one first. -/
def broughtByAll (mark : Mark) : List Node → Except Fault (List (Node × Node))
  | [] => .ok []
  | mapping _ _ entries start :: others => do
    let brought ← broughtIn start entries
    return (← broughtByAll mark others) ++ (brought ++ ownEntries entries)
  | enclosing _ _ _ _ start :: _ => .error (.plain .recursiveNode start)
  | item :: _ =>
    .error (.within .constructingMapping mark (.notMergeableItem item.kind) item.mark)

/-- The entries of a mapping that are not merge marks. -/
def ownEntries : List (Node × Node) → List (Node × Node)
  | [] => []
  | (key, value) :: others =>
    if key.tag = .core .merge then ownEntries others
    else (key, value) :: ownEntries others

end

/-- The entries of a mapping at a place, after merging. -/
def mergedEntries (mark : Mark) (entries : List (Node × Node)) :
    Except Fault (List (Node × Node)) := do
  return (← broughtIn mark entries) ++ ownEntries entries

/-! ## The mappings that are merged -/

mutual

/-- The mappings that merge marks among entries bring in, and those that these bring in. -/
def sources : List (Node × Node) → List Node
  | [] => []
  | (key, value) :: others =>
    if key.tag = .core .merge then sourcesOf value ++ sources others else sources others

/-- The mappings that the value of a merge mark brings in. -/
def sourcesOf : Node → List Node
  | node@(mapping _ _ entries _) => node :: sources entries
  | sequence _ _ items _ => sourcesOfAll items
  | scalar _ _ _ _ => []
  | enclosing _ _ _ _ _ => []

/-- The mappings that a sequence brings in. -/
def sourcesOfAll : List Node → List Node
  | [] => []
  | item :: others => sourcesOf item ++ sourcesOfAll others

end

end Node

end ResolverWiring.Yaml
