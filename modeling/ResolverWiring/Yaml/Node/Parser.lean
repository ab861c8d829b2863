import ResolverWiring.Yaml.Node.Outer
import ResolverWiring.Yaml.Tag.Resolution
import ResolverWiring.Yaml.Token

/-!
# `ResolverWiring.Yaml.Node.Parser` — trees from tokens

A parser takes tokens from the front of a list and remembers the anchored nodes. `parseDocument`
reads the one document that a text may hold; a text without any has no node.

An item or a value that is left out is an empty plain scalar.

## Contents

* `ParseState`, `NodeParser`, single tokens;
* the properties in front of a node (`parseProperties`);
* the five forms of a collection, each given a parser for the nodes inside;
* nodes (`parseNode`) and documents (`parseDocument`).
-/

namespace ResolverWiring.Yaml

/-- An anchor: its name, what is known of its node from the start, and the node, once it is complete. -/
structure Anchor where
  name : String
  number : NodeNumber
  tag : Tag
  kind : NodeKind
  mark : Mark
  node? : Option Node
deriving Repr, Inhabited

/-- The tokens that are left, the anchors so far, and the number of the next node. -/
structure ParseState where
  tokens : List Token
  anchors : List Anchor
  next : NodeNumber
deriving Repr, Inhabited

/-- A parser consumes tokens from the front of a list, or fails. -/
abbrev NodeParser := StateT ParseState (Except LoadError)

namespace NodeParser

variable {α : Type}

/-! ## Single tokens -/

/-- Fails with a fault. -/
def fail (fault : Fault) : NodeParser α := fun _ => .error (.malformed fault)

/-- The token in front, which stays. An invalid token fails. -/
def peek : NodeParser Token := fun s =>
  match s.tokens with
  | [] => .ok (⟨.streamEnd, .start⟩, s)
  | token :: _ =>
    match token.kind with
    | .invalid error => .error error
    | _ => .ok (token, s)

/-- The kind of the token in front. -/
def peekKind : NodeParser TokenKind := do return (← peek).kind

/-- Consumes the token in front. -/
def advance : NodeParser Unit := fun s => .ok ((), { s with tokens := s.tokens.tail })

/-- Consumes the token in front if it is of this kind, and says whether it was. -/
def takeToken (kind : TokenKind) : NodeParser Bool := do
  if (← peekKind) = kind then
    advance
    return true
  else
    return false

/-- Runs a parser that is given the number of tokens left, and one more, as a bound. -/
def bounded (p : Nat → NodeParser α) : NodeParser α := fun s => p (s.tokens.length + 1) s

/-- The place behind a mark of one character. -/
def behindMark (mark : Mark) : Mark := ⟨mark.index + 1, mark.line, mark.column + 1⟩

/-- A number for a node, which no other node has. -/
def newNumber : NodeParser NodeNumber := fun s => .ok (s.next, { s with next := s.next + 1 })

/-- The scalar that stands for a node left out at a place. -/
def emptyNode (mark : Mark) : NodeParser Node := do
  return .scalar (← newNumber) (.core .null) [] mark

/-! ## Anchors -/

/-- Remembers the start of an anchored node. The name must be new. -/
def openAnchor (name? : Option String) (number : NodeNumber) (tag : Tag) (kind : NodeKind)
    (mark : Mark) : NodeParser Unit := do
  match name? with
  | none => return ()
  | some name =>
    let s ← get
    match s.anchors.find? (·.name == name) with
    | some first => fail (.within (.firstAnchor name) first.mark .secondAnchor mark)
    | none => set { s with anchors := ⟨name, number, tag, kind, mark, none⟩ :: s.anchors }

/-- Completes an anchored node. -/
def closeAnchor (name? : Option String) (node : Node) : NodeParser Node := do
  match name? with
  | none => return node
  | some name =>
    modify fun s =>
      { s with anchors := s.anchors.map fun a => if a.name == name then { a with node? := node } else a }
    return node

/-- The node that an alias at a place names. Inside a collection that it names, an alias is a leaf. -/
def resolveAlias (name : String) (mark : Mark) : NodeParser Node := do
  match (← get).anchors.find? (·.name == name) with
  | none => fail (.plain (.undefinedAlias name) mark)
  | some anchor =>
    match anchor.node? with
    | some node => return node
    | none => return .enclosing (← newNumber) anchor.number anchor.tag anchor.kind anchor.mark

/-! ## Properties -/

/-- What stands in front of the content of a node. -/
structure Properties where
  anchor? : Option String
  tag? : Option RawTag
  /-- The place of the first property. -/
  mark? : Option Mark
  tagMark : Mark
deriving Repr, Inhabited

/-- The anchor in front, if there is one. -/
def takeAnchor : NodeParser (Option String) := do
  match ← peekKind with
  | .anchor name =>
    advance
    return some name
  | _ => return none

/-- The tag in front, if there is one. -/
def takeTag : NodeParser (Option RawTag) := do
  match ← peekKind with
  | .tag tag =>
    advance
    return some tag
  | _ => return none

/-- The properties in front: an anchor and a tag, in either order. -/
def parseProperties : NodeParser Properties := do
  let first ← peek
  match first.kind with
  | .anchor name =>
    advance
    let tagMark := (← peek).mark
    return ⟨some name, ← takeTag, some first.mark, tagMark⟩
  | .tag tag =>
    advance
    return ⟨← takeAnchor, some tag, some first.mark, first.mark⟩
  | _ => return ⟨none, none, none, first.mark⟩

/-- What tag handles stand for. -/
abbrev Handles := List (String × String)

/-- The text of a tag; none if the node has no tag or the one that says nothing. -/
def expandTag (handles : Handles) (properties : Properties) : NodeParser (Option Tag) := do
  match properties.tag? with
  | none => return none
  | some ⟨none, suffix⟩ => return specific suffix
  | some ⟨some handle, suffix⟩ =>
    match handles.lookup handle with
    | some front => return specific (front ++ suffix)
    | none =>
      fail (.within .parsingNode (properties.mark?.getD properties.tagMark) (.undefinedHandle handle)
        properties.tagMark)
where
  /-- The tag with a text, unless it is a lone exclamation mark. -/
  specific (text : String) : Option Tag := if text == "!" then none else some (.ofText text)

/-- The tag of a scalar. One that has none, and is plain or marked as without a specific tag, is what
it looks like. -/
def scalarTag (tag? : Option Tag) (marked plain : Bool) (text : List Char) : Tag :=
  tag?.getD (if plain || marked then .core (resolve text) else .core .string)

/-! ## Collections -/

/-- Where a node stands: in a flow collection, in a block one, or as the key or value of a block
mapping, where the items of a sequence need no indentation. -/
inductive Place where
  | flow
  | block
  | blockEntry
deriving DecidableEq, Repr, Inhabited

variable (inner : Place → NodeParser Node)

/-- The node behind a mark, or the empty one if `isOver` holds for the token there. -/
def nodeOrEmpty (place : Place) (isOver : TokenKind → Bool) (mark : Mark) : NodeParser Node := do
  if isOver (← peekKind) then emptyNode mark else inner place

/-- Fails at the token in front, where another one is wanted. -/
def unexpected (context : Context) (start : Mark) (problem : String → Problem) : NodeParser α := do
  let token ← peek
  fail (.within context start (problem token.kind.name) token.mark)

/-- The items of a block sequence that starts at a place, and its end. -/
def blockItems (start : Mark) : Nat → NodeParser (List Node)
  | 0 => fail (.plain .recursiveNode start)
  | bound + 1 => do
    let token ← peek
    match token.kind with
    | .blockEntry =>
      advance
      let item ← nodeOrEmpty inner .block
        (fun k => k = .blockEntry || k = .blockEnd) (behindMark token.mark)
      return item :: (← blockItems start bound)
    | .blockEnd =>
      advance
      return []
    | _ => unexpected .parsingBlockSequence start (.expectedToken "<block end>")

/-- The items of a block sequence that is not indented. -/
def bareItems (start : Mark) : Nat → NodeParser (List Node)
  | 0 => fail (.plain .recursiveNode start)
  | bound + 1 => do
    let token ← peek
    match token.kind with
    | .blockEntry =>
      advance
      let item ← nodeOrEmpty inner .block
        (fun k => k = .blockEntry || k = .key || k = .value || k = .blockEnd) (behindMark token.mark)
      return item :: (← bareItems start bound)
    | _ => return []

/-- The value of an entry, if `:` is in front; else it is empty. -/
def valueOrEmpty (place : Place) (isOver : TokenKind → Bool) : NodeParser Node := do
  let token ← peek
  if token.kind = .value then
    advance
    nodeOrEmpty inner place isOver (behindMark token.mark)
  else emptyNode token.mark

/-- The entries of a block mapping that starts at a place, and its end. -/
def blockEntries (start : Mark) : Nat → NodeParser (List (Node × Node))
  | 0 => fail (.plain .recursiveNode start)
  | bound + 1 => do
    let isOver (k : TokenKind) : Bool := k = .key || k = .value || k = .blockEnd
    let token ← peek
    match token.kind with
    | .key =>
      advance
      let key ← nodeOrEmpty inner .blockEntry isOver (behindMark token.mark)
      let value ← valueOrEmpty inner .blockEntry isOver
      return (key, value) :: (← blockEntries start bound)
    | .blockEnd =>
      advance
      return []
    | _ => unexpected .parsingBlockMapping start (.expectedToken "<block end>")

/-- The comma between items of a flow collection. -/
def separator (context : Context) (start : Mark) (wanted : String) (first : Bool) :
    NodeParser Unit := do
  if first then return ()
  else if ← takeToken .flowEntry then return ()
  else unexpected context start (.expectedInFlow wanted)

/-- The key and the value of an entry that is an item of a flow sequence, behind a place. -/
def flowPair (mark : Mark) : NodeParser (Node × Node) := do
  let key ← nodeOrEmpty inner .flow
    (fun k => k = .value || k = .flowEntry || k = .flowSequenceEnd) (behindMark mark)
  let value ← valueOrEmpty inner .flow fun k => k = .flowEntry || k = .flowSequenceEnd
  return (key, value)

/-- The items of a flow sequence that starts at a place, and its end. An item that is a key is a
mapping with one entry. -/
def flowItems (start : Mark) (first : Bool) : Nat → NodeParser (List Node)
  | 0 => fail (.plain .recursiveNode start)
  | bound + 1 => do
    if ← takeToken .flowSequenceEnd then return []
    separator .parsingFlowSequence start "',' or ']'" first
    if ← takeToken .flowSequenceEnd then return []
    let token ← peek
    let item ← if token.kind = .key then do
        advance
        let number ← newNumber
        let entry ← flowPair inner token.mark
        pure (Node.mapping number (.core .mapping) [entry] token.mark)
      else inner .flow
    return item :: (← flowItems start false bound)

/-- The entries of a flow mapping that starts at a place, and its end. A key without a mark has an
empty value. -/
def flowEntries (start : Mark) (first : Bool) : Nat → NodeParser (List (Node × Node))
  | 0 => fail (.plain .recursiveNode start)
  | bound + 1 => do
    if ← takeToken .flowMappingEnd then return []
    separator .parsingFlowMapping start "',' or '\x7d'" first
    if ← takeToken .flowMappingEnd then return []
    let token ← peek
    let isOver (k : TokenKind) : Bool := k = .flowEntry || k = .flowMappingEnd
    let entry ← if token.kind = .key then do
        advance
        let key ← nodeOrEmpty inner .flow (fun k => k = .value || isOver k) (behindMark token.mark)
        let value ← valueOrEmpty inner .flow isOver
        pure (key, value)
      else do
        let key ← inner .flow
        pure (key, ← emptyNode (← peek).mark)
    return entry :: (← flowEntries start false bound)

/-! ## Nodes -/

/-- The content of a node, behind its properties. -/
def parseContent (handles : Handles) (place : Place) (properties : Properties) : NodeParser Node := do
  let tag? ← expandTag handles properties
  let token ← peek
  let mark := properties.mark?.getD token.mark
  let anchor? := properties.anchor?
  let sequence (parse : Mark → Nat → NodeParser (List Node)) : NodeParser Node := do
    let number ← newNumber
    let tag := tag?.getD (.core .sequence)
    openAnchor anchor? number tag .sequence mark
    let items ← bounded (parse token.mark)
    closeAnchor anchor? (.sequence number tag items mark)
  let mapping (parse : Mark → Nat → NodeParser (List (Node × Node))) : NodeParser Node := do
    let number ← newNumber
    let tag := tag?.getD (.core .mapping)
    openAnchor anchor? number tag .mapping mark
    advance
    let entries ← bounded (parse token.mark)
    closeAnchor anchor? (.mapping number tag entries mark)
  let scalar (text : List Char) (plain : Bool) : NodeParser Node := do
    let number ← newNumber
    let tag := scalarTag tag? properties.tag?.isSome plain text
    openAnchor anchor? number tag .scalar mark
    closeAnchor anchor? (.scalar number tag text mark)
  match token.kind with
  | .scalar text plain =>
    advance
    scalar text plain
  | .flowSequenceStart => sequence fun start bound => do
    advance
    flowItems inner start true bound
  | .flowMappingStart => mapping fun start bound => flowEntries inner start true bound
  | kind =>
    if kind = .blockEntry && place = .blockEntry then sequence (bareItems inner)
    else if kind = .blockSequenceStart && place != .flow then sequence fun start bound => do
      advance
      blockItems inner start bound
    else if kind = .blockMappingStart && place != .flow then mapping (blockEntries inner)
    else if properties.mark?.isSome then scalar [] true
    else
      let context := if place = .flow then Context.parsingFlowNode else .parsingBlockNode
      unexpected context mark (.expectedToken "the node content")

/-- The node in front. Every node inside another one stands behind one of its tokens, so the number of
tokens bounds the depth. -/
def parseNode (handles : Handles) : Nat → Place → NodeParser Node
  | 0, _ => do fail (.plain .recursiveNode (← peek).mark)
  | bound + 1, place => do
    let token ← peek
    match token.kind with
    | .alias name =>
      advance
      resolveAlias name token.mark
    | _ => parseContent (parseNode handles bound) handles place (← parseProperties)

/-! ## Documents -/

/-- What the handles stand for that need no directive. -/
def standardHandles : Handles := [("!", "!"), ("!!", CoreTag.front)]

/-- The directives in front of a document, and what handles stand for behind them. -/
def parseDirectives (versionSeen : Bool) (handles : Handles) : Nat → NodeParser Handles
  | 0 => return handles
  | bound + 1 => do
    let token ← peek
    match token.kind with
    | .directive (.version major) =>
      advance
      if versionSeen then fail (.plain .duplicateVersion token.mark)
      else if major ≠ 1 then fail (.plain .incompatibleVersion token.mark)
      else parseDirectives true handles bound
    | .directive (.handle handle front) =>
      advance
      if (handles.lookup handle).isSome then fail (.plain (.duplicateHandle handle) token.mark)
      else parseDirectives versionSeen ((handle, front) :: handles) bound
    | .directive .other =>
      advance
      parseDirectives versionSeen handles bound
    | _ => return handles ++ standardHandles

/-- Consumes the marks of document ends in front. -/
def skipDocumentEnds : Nat → NodeParser Unit
  | 0 => return ()
  | bound + 1 => do if ← takeToken .documentEnd then skipDocumentEnds bound else return ()

/-- The start of a document that has its mark, with what the handles stand for and the place where the
document starts; `none` at the end of the text. -/
def parseDocumentStart : NodeParser (Option (Handles × Mark)) := do
  bounded skipDocumentEnds
  let token ← peek
  if token.kind = .streamEnd then return none
  let handles ← bounded (parseDirectives false [])
  if ← takeToken .documentStart then return some (handles, token.mark)
  else
    let found ← peek
    fail (.plain (.expectedToken "'<document start>'" found.kind.name) found.mark)

/-- The content of a document behind its mark, which may be left out. -/
def parseRoot (handles : Handles) : NodeParser Node := do
  let token ← peek
  match token.kind with
  | .directive _ => emptyNode token.mark
  | .documentStart => emptyNode token.mark
  | .documentEnd => emptyNode token.mark
  | .streamEnd => emptyNode token.mark
  | _ => bounded fun bound => parseNode handles bound .block

/-- The root of the one document, if there is one. -/
def parseFirst : NodeParser (Option Node) := do
  match ← peekKind with
  | .directive _ => marked
  | .documentStart => marked
  | .streamEnd => return none
  | _ => return some (← bounded fun bound => parseNode standardHandles bound .block)
where
  /-- The root of a document that has its mark. -/
  marked : NodeParser (Option Node) := do
    match ← parseDocumentStart with
    | none => return none
    | some (handles, _) => return some (← parseRoot handles)

/-- The root of the one document; there must be no other one. -/
def parseOnly : NodeParser (Option Node) := do
  match ← parseFirst with
  | none => return none
  | some root =>
    let _ ← takeToken .documentEnd
    match ← parseDocumentStart with
    | none => return some root
    | some (_, mark) => fail (.within .oneDocument root.mark .anotherDocument mark)

end NodeParser

/-- The root of the one document that tokens may hold. Mappings that are merged into what stands inside
them are put there once the document is complete. -/
def parseDocument (tokens : List Token) : Except LoadError (Option Node) :=
  (NodeParser.parseOnly ⟨tokens, [], 0⟩).map fun (root?, s) => root?.map (·.withOuter s.next)

end ResolverWiring.Yaml
