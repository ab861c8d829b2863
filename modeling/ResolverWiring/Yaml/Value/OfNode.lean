import ResolverWiring.Yaml.Value.Evaluation

/-!
# `ResolverWiring.Yaml.Value.OfNode` — what a node denotes

A tag of the language gives a node a value of its type. A short tag makes a mapping with one entry,
whose key is the long form of the tag. A tag of any other sort has no value.

Evaluating the document finds the values of its scalars, or the first error. If there is none,
`Value.assemble` puts the collections together. A collection that stands in itself is a leaf there;
what it holds is found when it is opened (`Value.opened`).
-/

namespace ResolverWiring.Yaml

/-! ## Short tags -/

/-- A text split at its first point. -/
def splitAtPoint (text : String) : List Value :=
  let cs := text.toList
  match cs.dropWhile (· != '.') with
  | [] => [.string text]
  | _ :: rest => [.string (String.ofList (cs.takeWhile (· != '.'))), .string (String.ofList rest)]

/-- The mapping that a short tag makes of a value. References keep their name; every other name is that
of a function, and the name of an attribute may be given as one text. -/
def shortForm (name : String) (value : Value) : Value :=
  if name = "Ref" then .map [(.string "Ref", value)]
  else
    let value := match value with
      | .string text => if name = "GetAtt" then .list (splitAtPoint text) else value
      | _ => value
    .map [(.string ("Fn::" ++ name), value)]

/-! ## Collections -/

namespace Value

section Parts

variable (inside : Node → Value)

/-- The entries of a mapping after merging. -/
def mergedValues (node : Node) : List (Value × Value) :=
  match Node.mergedEntries node.mark node.entries with
  | .ok entries => entries.map fun entry => (inside entry.1, inside entry.2)
  | .error _ => []

/-- What a node denotes by its form. -/
def ofForm : Node → Value
  | .scalar _ _ text _ => string (String.ofList text)
  | .sequence _ _ items _ => list (items.map inside)
  | node@(.mapping _ _ _ _) => map (ofEntries (mergedValues inside node))
  | .enclosing _ _ _ _ _ => null

/-- The pairs that an item of a list of pairs denotes, of which there is one. -/
def pairsOf (item : Node) : List Value :=
  (mergedValues inside item).map fun (key, value) => tuple [key, value]

/-- What a node denotes that is tagged as a collection or with a short tag. -/
def ofCollection (node : Node) : Value :=
  match node.tag with
  | .short name => shortForm name (ofForm inside node)
  | .core .set => set (some node.number) ((ofEntries (mergedValues inside node)).map (·.1))
  | .core .orderedMap => list (node.items.flatMap (pairsOf inside))
  | .core .pairs => list (node.items.flatMap (pairsOf inside))
  | _ => ofForm inside node

end Parts

/-- What a node denotes in a document with this root that has been evaluated; the tree below the node
has at most `bound` levels. -/
def assemble (root : Node) (p : Progress) : Nat → Node → Value
  | 0, _ => null
  | bound + 1, node =>
    match node.target? with
    | some target => enclosing root target
    | none => (p.value? node).getD (ofCollection (assemble root p bound) node)

/-- What a node of a document denotes. A tree has no more levels than nodes. -/
def ofNodeIn (root node : Node) : Except LoadError Value := do
  return assemble root (← evaluate root) node.weight node

/-- What the root of a document denotes. -/
def ofNode (root : Node) : Except LoadError Value := ofNodeIn root root

/-- The node of a document with a number. -/
def nodeNumbered? (root : Node) (number : NodeNumber) : Option Node :=
  root.nodes.find? (·.number == number)

/-- What a value holds: that of the collection, where a collection stands in itself. -/
def opened : Value → Value
  | enclosing root target =>
    ((nodeNumbered? root target).bind fun node => (ofNodeIn root node).toOption).getD null
  | value => value

end Value

end ResolverWiring.Yaml
