import ResolverWiring.Yaml.Node.Merge
import ResolverWiring.Yaml.Value.Scalar

/-!
# `ResolverWiring.Yaml.Value.Evaluation` — meeting the nodes of a document

Every node of a document is met, and only once, however many aliases name it. A scalar gets its value
when it is met. A collection waits; once it is opened, its parts are met. Collections are opened in the
order in which they were met, but what stands below a short tag is opened at once. A document can hold
several errors, and the first one in this order is reported.

A collection may stand in itself if it has been met by then. One that is opened at once is met only
when all its parts have been.

Opening a mapping merges others into it, which changes all of them for good: the mark for a value is a
text from then on where it is one of their keys, and a list of pairs that is opened later finds the
entries after merging.

## Contents

* `Progress`, how far the evaluation of a document has come;
* `scalarText`, the text of a node that has to be a scalar;
* `Evaluation` and the parts of collections, each given a way to meet the nodes inside;
* `visit`, which meets a node, and `evaluate`, which meets all.
-/

namespace ResolverWiring.Yaml

/-! ## Progress -/

/-- How far the evaluation of a document has come. -/
structure Progress where
  /-- The nodes met, scalars with their values. -/
  met : List (NodeNumber × Option Value)
  /-- The collections that wait to be opened, the first one first. -/
  waiting : List Node
  /-- The mappings that are merged. -/
  merged : List NodeNumber
  /-- Marks for values that are texts, since they are keys of merged mappings. -/
  texts : List NodeNumber
deriving Repr, Inhabited

namespace Progress

/-- Nothing is met. -/
def start : Progress := ⟨[], [], [], []⟩

/-- Whether the node with a number has been met. -/
def hasMet (p : Progress) (number : NodeNumber) : Bool := p.met.any (·.1 == number)

/-- Whether a node has been met. -/
def isMet (p : Progress) (node : Node) : Bool := p.hasMet node.number

/-- The value of a node that has been met as a scalar. -/
def value? (p : Progress) (node : Node) : Option Value := (p.met.lookup node.number).join

/-- Meets a node. -/
def meet (p : Progress) (node : Node) (value? : Option Value) : Progress :=
  { p with met := (node.number, value?) :: p.met }

/-- The tag that a node has by now. -/
def tagOf (p : Progress) (node : Node) : Tag :=
  if node.tag = .core .value && p.texts.contains node.number then .core .string else node.tag

/-- Merges into a mapping what its merge marks bring in. -/
def merge (p : Progress) (node : Node) : Progress :=
  let mappings := node :: Node.sources node.entries
  let marks := mappings.flatMap fun m => (m.entries.map (·.1)).filter (·.tag = .core .value)
  { p with merged := mappings.map (·.number) ++ p.merged, texts := marks.map (·.number) ++ p.texts }

end Progress

/-! ## Scalars -/

mutual

/-- The text of a scalar. A mapping stands for the value that is marked in it. -/
def scalarText (p : Progress) : Node → Except Fault (List Char)
  | .scalar _ _ text _ => .ok text
  | .sequence _ _ _ mark => .error (.plain (.expectedNode .scalar .sequence) mark)
  | .mapping _ _ entries mark =>
    (markedText p entries).getD (.error (.plain (.expectedNode .scalar .mapping) mark))
  | .enclosing _ _ _ kind mark => .error (.plain (.expectedNode .scalar kind) mark)

/-- The text of the first value that is marked among entries. -/
def markedText (p : Progress) : List (Node × Node) → Option (Except Fault (List Char))
  | [] => none
  | (key, value) :: others =>
    if p.tagOf key = .core .value then some (scalarText p value) else markedText p others

end

/-- The value of a node with the tag of a scalar. A timestamp has to be a scalar itself. -/
def scalarOf (p : Progress) (tag : CoreTag) (node : Node) : Except LoadError Value := do
  let text ← (scalarText p node).mapError .malformed
  if tag = .timestamp && node.kind = .mapping then .error (.scalar .timestampOfEntries)
  else scalarValue tag node.number text node.mark

/-! ## Collections -/

/-- A step of the evaluation of a document. -/
abbrev Evaluation := StateT Progress (Except LoadError)

namespace Evaluation

variable {α : Type}

/-- Fails with a fault. -/
def fail (fault : Fault) : Evaluation α := fun _ => .error (.malformed fault)

/-- A result, or its error. -/
def ofExcept (result : Except LoadError α) : Evaluation α := fun p => result.map (·, p)

/-- A node with a tag that gives no value. -/
def unknown (node : Node) : Evaluation Unit := fail (.plain (.unknownTag node.tag.text) node.mark)

/-- The single entry of an item of a list of pairs. -/
def pairEntry (p : Progress) (context : Context) (start : Mark) (item : Node) :
    Except Fault (Node × Node) :=
  match item with
  | .mapping number _ entries mark =>
    match if p.merged.contains number then Node.mergedEntries mark entries else .ok entries with
    | .ok [entry] => .ok entry
    | .ok entries => .error (.within context start (.severalItems entries.length) mark)
    | .error fault => .error fault
  | _ => .error (.within context start (.notSingleton item.kind) item.mark)

section Parts

variable (inside : Node → Evaluation Unit)

/-- Meets the parts of an entry of a mapping that starts at a place. A key must not be a collection. -/
def visitEntry (start : Mark) (entry : Node × Node) : Evaluation Unit := do
  inside entry.1
  if ((← get).value? entry.1).isNone then
    fail (.within .constructingMapping start .unhashableKey entry.1.mark)
  inside entry.2

/-- Merges into a mapping what it brings in, and meets its entries. -/
def visitEntries (node : Node) : Evaluation Unit := do
  match Node.mergedEntries node.mark node.entries with
  | .error fault => fail fault
  | .ok merged =>
    modify (·.merge node)
    merged.forM (visitEntry inside node.mark)

/-- Meets the parts of a list of pairs. -/
def visitPairs (context : Context) (node : Node) : Evaluation Unit :=
  match node with
  | .sequence _ _ items mark => items.forM fun item => do
    match pairEntry (← get) context mark item with
    | .error fault => fail fault
    | .ok entry =>
      inside entry.1
      inside entry.2
  | _ => fail (.within context node.mark (.notItems node.kind) node.mark)

/-- Meets the parts of a node that has to be a sequence. -/
def visitItems (node : Node) : Evaluation Unit :=
  match node with
  | .sequence _ _ items _ => items.forM inside
  | _ => fail (.plain (.expectedNode .sequence node.kind) node.mark)

/-- Meets the parts of a node that has to be a mapping. -/
def visitMapping (node : Node) : Evaluation Unit :=
  match node with
  | .mapping _ _ _ _ => visitEntries inside node
  | _ => fail (.plain (.expectedNode .mapping node.kind) node.mark)

/-- Meets the parts of a node with a short tag. -/
def visitShort (node : Node) : Evaluation Unit :=
  match node with
  | .scalar _ _ _ _ => return ()
  | .sequence _ _ items _ => items.forM inside
  | .mapping _ _ _ _ => visitEntries inside node
  | .enclosing _ _ _ _ _ => return ()

/-- Opens a node that is tagged as a collection of the language. -/
def openCollection (node : Node) : Evaluation Unit :=
  match node.tag with
  | .core .sequence => visitItems inside node
  | .core .mapping => visitMapping inside node
  | .core .set => visitMapping inside node
  | .core .orderedMap => visitPairs inside .constructingOrderedMap node
  | .core .pairs => visitPairs inside .constructingPairs node
  | _ => unknown node

end Parts

/-! ## Documents -/

/-- Meets an alias inside the collection that it names, which must have been met. -/
def visitEnclosing (p : Progress) (target : NodeNumber) (node : Node) : Evaluation Unit :=
  if p.hasMet target then modify (·.meet node none) else fail (.plain .recursiveNode node.mark)

/-- Meets any other node, which has not been met. A collection is opened at once if `atOnce` says so,
and else it waits; `inside` meets the nodes inside. -/
def visitContent (inside : Bool → Node → Evaluation Unit) (atOnce : Bool) (p : Progress)
    (node : Node) : Evaluation Unit :=
  match p.tagOf node with
  | .other _ => unknown node
  | .short _ => do
    visitShort (inside true) node
    modify (·.meet node none)
  | .core tag =>
    if tag.isScalar then do
      let value ← ofExcept (scalarOf p tag node)
      modify (·.meet node (some value))
    else if tag.isCollection then
      if atOnce then do
        openCollection (inside true) node
        modify (·.meet node none)
      else modify fun p => { p.meet node none with waiting := p.waiting ++ [node] }
    else unknown node

/-- Meets a node. -/
def visitWith (inside : Bool → Node → Evaluation Unit) (atOnce : Bool) (node : Node) :
    Evaluation Unit := do
  let p ← get
  if p.isMet node then return ()
  match node.target? with
  | some target => visitEnclosing p target node
  | none => visitContent inside atOnce p node

/-- Meets a node; the tree below it has at most `bound` levels. -/
def visit : Nat → Bool → Node → Evaluation Unit
  | 0, _, node => fail (.plain .recursiveNode node.mark)
  | bound + 1, atOnce, node => visitWith (visit bound) atOnce node

/-- Opens up to `count` collections that wait, and those that come to wait meanwhile. -/
def openWaiting (bound : Nat) : Nat → Evaluation Unit
  | 0 => return ()
  | count + 1 => do
    match (← get).waiting with
    | [] => return ()
    | node :: others =>
      modify fun p => { p with waiting := others }
      openCollection (visit bound false) node
      openWaiting bound count

end Evaluation

/-- Meets all nodes of a document. A tree has no more levels than nodes. -/
def evaluate (root : Node) : Except LoadError Progress := do
  let (_, p) ← Evaluation.visit root.weight false root .start
  let (_, p) ← Evaluation.openWaiting root.weight root.weight p
  return p

end ResolverWiring.Yaml
