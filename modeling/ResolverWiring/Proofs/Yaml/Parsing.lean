import ResolverWiring.Proofs.Yaml.TreeTokens
import ResolverWiring.Yaml.Node.Parser

/-!
# `Proofs.Yaml.Parsing` — a written tree is parsed

The parser makes of the tokens of a tree of data a node that stands for the tree (`Node.StandsFor`): the same
scalars in the same order, with the tags that the tree has. The nodes are numbered in the order in which they start,
so no two of them have the same number.

What is known of the parser inside a collection is the same for all its parts (`PrintTree.IsParsed`). The
collections are an induction on their parts, and `isParsed_of_isData` is one on the tree.
-/

namespace ResolverWiring.Yaml

open NodeParser

/-! ## Nodes and trees -/

namespace Node

mutual

/-- Whether a node is that of a tree: it has the tags and texts of the tree. -/
def StandsFor : Node → PrintTree → Prop
  | .scalar _ tag text _, tree => ∃ core, tag = .core core ∧ tree = .scalar none core text
  | .sequence _ tag items _, tree => tag = .core .sequence ∧ ∃ trees, tree = .sequence trees ∧ ItemsStandFor items trees
  | .mapping _ tag entries _, tree =>
    tag = .core .mapping ∧ ∃ trees, tree = .mapping none false trees ∧ EntriesStandFor entries trees
  | .enclosing _ _ _ _ _, _ => False

/-- Whether nodes are those of trees, in the same order. -/
def ItemsStandFor : List Node → List PrintTree → Prop
  | [], trees => trees = []
  | item :: others, trees => ∃ tree behind, trees = tree :: behind ∧ StandsFor item tree ∧ ItemsStandFor others behind

/-- Whether pairs of nodes are those of pairs of trees, in the same order. -/
def EntriesStandFor : List (Node × Node) → List (PrintTree × PrintTree) → Prop
  | [], trees => trees = []
  | (key, value) :: others, trees => ∃ keyTree valueTree behind, trees = (keyTree, valueTree) :: behind
    ∧ StandsFor key keyTree ∧ StandsFor value valueTree ∧ EntriesStandFor others behind

end

section Shapes

variable {node : Node} {nodes : List Node} {pairs : List (Node × Node)} {tree key value : PrintTree}
  {trees : List PrintTree} {entries : List (PrintTree × PrintTree)}

/-- The node of a scalar. -/
theorem StandsFor.eq_scalar {anchor? : Option AnchorNumber} {tag : CoreTag} {text : List Char}
    (h : node.StandsFor (.scalar anchor? tag text)) : ∃ number mark, node = .scalar number (.core tag) text mark := by
  cases node with
  | scalar number _ _ mark =>
    obtain ⟨core, rfl, heq⟩ := h
    cases heq
    exact ⟨number, mark, rfl⟩
  | sequence _ _ _ _ =>
    obtain ⟨-, _, heq, -⟩ := h
    cases heq
  | mapping _ _ _ _ =>
    obtain ⟨-, _, heq, -⟩ := h
    cases heq
  | enclosing _ _ _ _ _ => exact h.elim

/-- The node of a sequence. -/
theorem StandsFor.eq_sequence (h : node.StandsFor (.sequence trees)) :
    ∃ number items mark, node = .sequence number (.core .sequence) items mark ∧ ItemsStandFor items trees := by
  cases node with
  | scalar _ _ _ _ =>
    obtain ⟨_, -, heq⟩ := h
    cases heq
  | sequence number _ items mark =>
    obtain ⟨rfl, _, heq, hitems⟩ := h
    cases heq
    exact ⟨number, items, mark, rfl, hitems⟩
  | mapping _ _ _ _ =>
    obtain ⟨-, _, heq, -⟩ := h
    cases heq
  | enclosing _ _ _ _ _ => exact h.elim

/-- The node of a mapping. -/
theorem StandsFor.eq_mapping (h : node.StandsFor (.mapping none false entries)) :
    ∃ number pairs mark, node = .mapping number (.core .mapping) pairs mark ∧ EntriesStandFor pairs entries := by
  cases node with
  | scalar _ _ _ _ =>
    obtain ⟨_, -, heq⟩ := h
    cases heq
  | sequence _ _ _ _ =>
    obtain ⟨-, _, heq, -⟩ := h
    cases heq
  | mapping number _ pairs mark =>
    obtain ⟨rfl, _, heq, hpairs⟩ := h
    cases heq
    exact ⟨number, pairs, mark, rfl, hpairs⟩
  | enclosing _ _ _ _ _ => exact h.elim

mutual

/-- Data has no aliases. -/
theorem StandsFor.isClosed : ∀ {node : Node} {tree : PrintTree}, node.StandsFor tree → node.isClosed = true
  | .scalar _ _ _ _, _, _ => rfl
  | .sequence _ _ _ _, _, h => by
    obtain ⟨-, _, -, hitems⟩ := h
    exact hitems.isClosed
  | .mapping _ _ _ _, _, h => by
    obtain ⟨-, _, -, hentries⟩ := h
    exact hentries.isClosed
  | .enclosing _ _ _ _ _, _, h => h.elim

theorem ItemsStandFor.isClosed : ∀ {items : List Node} {trees : List PrintTree}, ItemsStandFor items trees →
    (itemNodes items).all (·.target?.isNone) = true
  | [], _, _ => rfl
  | _ :: _, _, h => by
    obtain ⟨_, _, -, hitem, hothers⟩ := h
    rw [itemNodes, List.all_append, Bool.and_eq_true]
    exact ⟨hitem.isClosed, hothers.isClosed⟩

theorem EntriesStandFor.isClosed : ∀ {entries : List (Node × Node)} {trees : List (PrintTree × PrintTree)},
    EntriesStandFor entries trees → (entryNodes entries).all (·.target?.isNone) = true
  | [], _, _ => rfl
  | (_, _) :: _, _, h => by
    obtain ⟨_, _, _, -, hkey, hvalue, hothers⟩ := h
    rw [entryNodes, List.all_append, List.all_append, Bool.and_eq_true, Bool.and_eq_true]
    exact ⟨hkey.isClosed, hvalue.isClosed, hothers.isClosed⟩

end

theorem ItemsStandFor.eq_nil (h : ItemsStandFor nodes []) : nodes = [] := by
  cases nodes with
  | nil => rfl
  | cons node others =>
    obtain ⟨_, _, heq, -⟩ := h
    cases heq

theorem ItemsStandFor.eq_cons (h : ItemsStandFor nodes (tree :: trees)) :
    ∃ node others, nodes = node :: others ∧ node.StandsFor tree ∧ ItemsStandFor others trees := by
  cases nodes with
  | nil => cases h
  | cons node others =>
    obtain ⟨_, _, heq, hnode, hothers⟩ := h
    cases heq
    exact ⟨node, others, rfl, hnode, hothers⟩

theorem EntriesStandFor.eq_nil (h : EntriesStandFor pairs []) : pairs = [] := by
  cases pairs with
  | nil => rfl
  | cons pair others =>
    obtain ⟨_, _, _, heq, -⟩ := h
    cases heq

theorem EntriesStandFor.eq_cons (h : EntriesStandFor pairs ((key, value) :: entries)) :
    ∃ keyNode valueNode others, pairs = (keyNode, valueNode) :: others ∧ keyNode.StandsFor key
      ∧ valueNode.StandsFor value ∧ EntriesStandFor others entries := by
  cases pairs with
  | nil => cases h
  | cons pair others =>
    obtain ⟨keyNode, valueNode⟩ := pair
    obtain ⟨_, _, _, heq, hkey, hvalue, hothers⟩ := h
    cases heq
    exact ⟨keyNode, valueNode, others, rfl, hkey, hvalue, hothers⟩

end Shapes

end Node

/-! ## Numbering -/

/-- Whether nodes have the numbers from one number up to another, in this order. -/
def Numbered (first : NodeNumber) (nodes : List Node) (next : NodeNumber) : Prop :=
  nodes.map (·.number) = List.range' first nodes.length ∧ next = first + nodes.length

theorem Numbered.nil (first : NodeNumber) : Numbered first [] first := ⟨rfl, rfl⟩

theorem Numbered.append {first middle next : NodeNumber} {nodes others : List Node}
    (h : Numbered first nodes middle) (hothers : Numbered middle others next) : Numbered first (nodes ++ others) next := by
  obtain ⟨hnumbers, rfl⟩ := h
  obtain ⟨hothers, rfl⟩ := hothers
  refine ⟨?_, by rw [List.length_append, Nat.add_assoc]⟩
  rw [List.map_append, hnumbers, hothers, List.range'_append_1, List.length_append]

/-- One more node in front. -/
theorem Numbered.cons {first next : NodeNumber} {nodes : List Node} {node : Node} (hnumber : node.number = first)
    (h : Numbered (first + 1) nodes next) : Numbered first (node :: nodes) next := by
  have hfirst : Numbered first [node] (first + 1) := ⟨congrArg ([·]) hnumber, rfl⟩
  exact hfirst.append h

theorem Numbered.nodup {first next : NodeNumber} {nodes : List Node} (h : Numbered first nodes next) :
    (nodes.map (·.number)).Nodup := by
  rw [h.1]
  exact List.nodup_range' _

/-! ## Single nodes -/

namespace NodeParser

section Nodes

variable {handles : Handles} {bound : Nat} {place : Place} {mark : Mark} {tokens : List Token} {anchors : List Anchor}
  {next : NodeNumber} {s : ParseState}

theorem parseNode_scalar (text : List Char) (plain : Bool) :
    parseNode handles (bound + 1) place ⟨⟨.scalar text plain, mark⟩ :: tokens, anchors, next⟩
      = .ok (.scalar next (if plain then .core (resolve text) else .core .string) text mark,
        ⟨tokens, anchors, next + 1⟩) := by
  cases plain <;> rfl

theorem parseNode_noItems (behind : Mark) :
    parseNode handles (bound + 1) place
        ⟨⟨.flowSequenceStart, mark⟩ :: ⟨.flowSequenceEnd, behind⟩ :: tokens, anchors, next⟩
      = .ok (.sequence next (.core .sequence) [] mark, ⟨tokens, anchors, next + 1⟩) := rfl

theorem parseNode_noEntries (behind : Mark) :
    parseNode handles (bound + 1) place
        ⟨⟨.flowMappingStart, mark⟩ :: ⟨.flowMappingEnd, behind⟩ :: tokens, anchors, next⟩
      = .ok (.mapping next (.core .mapping) [] mark, ⟨tokens, anchors, next + 1⟩) := rfl

theorem parseNode_blockItems {items : List Node} (hplace : place ≠ .flow)
    (h : blockItems (parseNode handles bound) mark (tokens.length + 2) ⟨tokens, anchors, next + 1⟩ = .ok (items, s)) :
    parseNode handles (bound + 1) place ⟨⟨.blockSequenceStart, mark⟩ :: tokens, anchors, next⟩
      = .ok (.sequence next (.core .sequence) items mark, s) := by
  cases place with
  | flow => exact absurd rfl hplace
  | _ =>
    show (blockItems (parseNode handles bound) mark (tokens.length + 2) ⟨tokens, anchors, next + 1⟩ >>= _ :
      Except LoadError (Node × ParseState)) = _
    rw [h]
    rfl

theorem parseNode_blockEntries {entries : List (Node × Node)} (hplace : place ≠ .flow)
    (h : blockEntries (parseNode handles bound) mark (tokens.length + 1) ⟨tokens, anchors, next + 1⟩
      = .ok (entries, s)) :
    parseNode handles (bound + 1) place ⟨⟨.blockMappingStart, mark⟩ :: tokens, anchors, next⟩
      = .ok (.mapping next (.core .mapping) entries mark, s) := by
  cases place with
  | flow => exact absurd rfl hplace
  | _ =>
    show (blockEntries (parseNode handles bound) mark (tokens.length + 1) ⟨tokens, anchors, next + 1⟩ >>= _ :
      Except LoadError (Node × ParseState)) = _
    rw [h]
    rfl

theorem parseNode_bareItems {items : List Node}
    (h : bareItems (parseNode handles bound) mark (tokens.length + 2)
      ⟨⟨.blockEntry, mark⟩ :: tokens, anchors, next + 1⟩ = .ok (items, s)) :
    parseNode handles (bound + 1) .blockEntry ⟨⟨.blockEntry, mark⟩ :: tokens, anchors, next⟩
      = .ok (.sequence next (.core .sequence) items mark, s) := by
  show (bareItems (parseNode handles bound) mark (tokens.length + 2) ⟨⟨.blockEntry, mark⟩ :: tokens, anchors, next + 1⟩
    >>= _ : Except LoadError (Node × ParseState)) = _
  rw [h]
  rfl

end Nodes

/-! ## Runs -/

/-- Whether a parser succeeds from a state on and stops in front of tokens of these kinds, with a result for which
`holds` is true and whose nodes are numbered in order. -/
def Makes {α : Type} (parser : NodeParser α) (s : ParseState) (behind : List TokenKind) (holds : α → Prop)
    (nodes : α → List Node) : Prop :=
  ∃ a s', parser s = .ok (a, s') ∧ s'.tokens.map (·.kind) = behind ∧ holds a ∧ Numbered s.next (nodes a) s'.next

theorem bind_of_ok {α β : Type} {parser : NodeParser α} {f : α → NodeParser β} {s s' : ParseState} {a : α}
    (h : parser s = .ok (a, s')) : (parser >>= f) s = f a s' := by
  show (parser s >>= fun r => f r.1 r.2) = f a s'
  rw [h]
  rfl

/-- The token in front of a state, if its kind is known. -/
theorem exists_front {s : ParseState} {kind : TokenKind} {kinds : List TokenKind}
    (h : s.tokens.map (·.kind) = kind :: kinds) : ∃ mark tokens anchors next,
      s = ⟨⟨kind, mark⟩ :: tokens, anchors, next⟩ ∧ tokens.map (·.kind) = kinds := by
  obtain ⟨tokens, anchors, next⟩ := s
  obtain ⟨⟨kind, mark⟩, tokens, rfl, rfl, rfl⟩ := List.map_eq_cons_iff.mp h
  exact ⟨mark, tokens, anchors, next, rfl, rfl⟩

/-- Whether a node starts with a token of this kind. -/
def startsNode : TokenKind → Bool
  | .scalar _ _ => true
  | .flowSequenceStart => true
  | .flowMappingStart => true
  | .blockSequenceStart => true
  | .blockMappingStart => true
  | .blockEntry => true
  | _ => false

section Parts

variable {inner : Place → NodeParser Node} {place : Place} {start mark : Mark} {kind : TokenKind}
  {tokens : List Token} {anchors : List Anchor} {next : NodeNumber} {kinds : List TokenKind}

theorem peek_front {s : ParseState} (h : s.tokens.map (·.kind) = kind :: kinds) (hkind : ∀ error, kind ≠ .invalid error) :
    ∃ mark, peek s = .ok (⟨kind, mark⟩, s) := by
  obtain ⟨mark, tokens, anchors, next, rfl, -⟩ := exists_front h
  refine ⟨mark, ?_⟩
  cases kind with
  | invalid error => exact absurd rfl (hkind error)
  | _ => rfl

/-- A node that is not left out. -/
theorem nodeOrEmpty_of_starts {s : ParseState} {isOver : TokenKind → Bool} (h : s.tokens.map (·.kind) = kind :: kinds)
    (hkind : startsNode kind = true) (hover : isOver kind = false) : nodeOrEmpty inner place isOver mark s = inner place s := by
  obtain ⟨front, hpeek⟩ := peek_front h (by rintro error rfl; cases hkind)
  show ((peek s >>= fun r => .ok (r.1.kind, r.2)) >>= fun r => (if isOver r.1 then emptyNode mark else inner place) r.2) = _
  rw [hpeek]
  show (if isOver kind then emptyNode mark else inner place) s = _
  rw [hover]
  rfl

end Parts

end NodeParser

/-! ## Trees -/

namespace PrintTree

/-- A node starts with a token of its own, and behind a mark it is no item of a sequence. -/
theorem tokensBehind_front {tree : PrintTree} (h : tree.IsData) (position : Position) :
    ∃ kind kinds, tokensBehind position tree = kind :: kinds ∧ startsNode kind = true
      ∧ (position = .behindMark → kind ≠ .blockEntry) := by
  match tree with
  | .alias _ => exact h.elim
  | .scalar _ tag text => exact ⟨_, _, tokensBehind_scalar _ _ _ _, rfl, nofun⟩
  | .mapping _ _ entries =>
    by_cases hentries : entries = []
    · subst hentries
      exact ⟨_, _, rfl, rfl, nofun⟩
    · exact ⟨_, _, tokensBehind_entries hentries, rfl, nofun⟩
  | .sequence items =>
    cases items with
    | nil => exact ⟨_, _, rfl, rfl, nofun⟩
    | cons item others =>
      rw [tokensBehind_items (List.cons_ne_nil _ _)]
      cases position with
      | behindMark => exact ⟨_, _, rfl, rfl, nofun⟩
      | behindKey => exact ⟨_, _, rfl, rfl, nofun⟩

/-- Whether the parser makes a node of a tree wherever it stands in a block. Behind a key there is another one or the
end of the mapping. -/
def IsParsed (tree : PrintTree) : Prop :=
  ∀ ⦃handles : Handles⦄ ⦃position : Position⦄ ⦃place : Place⦄ ⦃bound : Nat⦄ ⦃s : ParseState⦄ ⦃behind : List TokenKind⦄,
    place ≠ .flow →
    (position = .behindKey → place = .blockEntry ∧ ∀ kind ∈ behind.head?, kind = .key ∨ kind = .blockEnd) →
    s.tokens.length < bound → s.tokens.map (·.kind) = tokensBehind position tree ++ behind →
    Makes (parseNode handles bound place) s behind (·.StandsFor tree) Node.nodes

section Parts

variable {handles : Handles} {bound count : Nat} {start : Mark} {s : ParseState} {behind : List TokenKind}
  {items : List PrintTree} {entries : List (PrintTree × PrintTree)}

/-- A node that is not left out, where it may be. -/
theorem IsParsed.orEmpty {tree : PrintTree} (h : tree.IsParsed) (hdata : tree.IsData) (position : Position) {place : Place}
    {isOver : TokenKind → Bool} (hplace : place ≠ .flow)
    (hposition : position = .behindKey → place = .blockEntry ∧ ∀ kind ∈ behind.head?, kind = .key ∨ kind = .blockEnd)
    (hover : ∀ kind, startsNode kind = true → (position = .behindMark → kind ≠ .blockEntry) → isOver kind = false)
    (hbound : s.tokens.length < bound) (hkinds : s.tokens.map (·.kind) = tokensBehind position tree ++ behind) :
    Makes (nodeOrEmpty (parseNode handles bound) place isOver start) s behind (·.StandsFor tree) Node.nodes := by
  obtain ⟨kind, kinds, hfront, hstarts, hentry⟩ := tokensBehind_front hdata position
  have hkinds' := hkinds
  rw [hfront, List.cons_append] at hkinds'
  unfold Makes
  rw [nodeOrEmpty_of_starts hkinds' hstarts (hover kind hstarts hentry)]
  exact h hplace hposition hbound hkinds

/-- The items of a sequence, for a parser that takes one behind each mark and stops in front of the tokens of an end. -/
theorem makes_items {parseItems : Nat → NodeParser (List Node)} {isOver : TokenKind → Bool} {ending : List TokenKind}
    (hstep : ∀ count mark tokens anchors next, parseItems (count + 1) ⟨⟨.blockEntry, mark⟩ :: tokens, anchors, next⟩
      = (nodeOrEmpty (parseNode handles bound) .block isOver (behindMark mark) >>= fun item =>
        parseItems count >>= fun others => pure (item :: others) : NodeParser (List Node)) ⟨tokens, anchors, next⟩)
    (hover : ∀ kind, startsNode kind = true → kind ≠ .blockEntry → isOver kind = false)
    (hend : ∀ count s, s.tokens.map (·.kind) = ending →
      Makes (parseItems (count + 1)) s behind (Node.ItemsStandFor · []) Node.itemNodes)
    (hdata : ItemsAreData items) (hall : ∀ item ∈ items, item.IsParsed)
    (hbound : s.tokens.length ≤ bound) (hcount : s.tokens.length < count)
    (hkinds : s.tokens.map (·.kind) = itemTokens items ++ ending) :
    Makes (parseItems count) s behind (Node.ItemsStandFor · items) Node.itemNodes := by
  -- the tokens that are left bound the rounds that are left, and each item takes its mark at least
  induction items generalizing s count with
  | nil =>
    obtain ⟨count, rfl⟩ := Nat.exists_eq_add_one_of_ne_zero (Nat.ne_zero_of_lt hcount)
    exact hend _ s hkinds
  | cons item others ih =>
    obtain ⟨hitem, hothers⟩ := List.forall_mem_cons.mp hall
    rw [itemTokens, List.cons_append, List.append_assoc] at hkinds
    obtain ⟨mark, tokens, anchors, next, rfl, hbehind⟩ := exists_front hkinds
    obtain ⟨count, rfl⟩ := Nat.exists_eq_add_one_of_ne_zero (Nat.ne_zero_of_lt hcount)
    have hnode : Makes (nodeOrEmpty (parseNode handles bound) .block isOver (behindMark mark)) ⟨tokens, anchors, next⟩
        (itemTokens others ++ ending) (·.StandsFor item) Node.nodes :=
      hitem.orEmpty hdata.1 .behindMark nofun nofun (fun kind hstarts hentry => hover kind hstarts (hentry rfl)) hbound
        hbehind
    obtain ⟨node, s, hnode, hrest, hstands, hnumbers⟩ := hnode
    have hlength := congrArg List.length hbehind
    have hlength' := congrArg List.length hrest
    simp only [List.length_map, List.length_append, List.length_cons] at hbound hcount hlength hlength'
    have hmore : Makes (parseItems count) s behind (Node.ItemsStandFor · others) Node.itemNodes :=
      ih hdata.2 hothers (by omega) (by omega) hrest
    obtain ⟨nodes, s', hnodes, hrest', hstands', hnumbers'⟩ := hmore
    refine ⟨node :: nodes, s', ?_, hrest', ⟨_, _, rfl, hstands, hstands'⟩, hnumbers.append hnumbers'⟩
    rw [hstep, bind_of_ok hnode, bind_of_ok hnodes]
    rfl

theorem makes_blockItems (hdata : ItemsAreData items) (hall : ∀ item ∈ items, item.IsParsed)
    (hbound : s.tokens.length ≤ bound) (hcount : s.tokens.length < count)
    (hkinds : s.tokens.map (·.kind) = itemTokens items ++ .blockEnd :: behind) :
    Makes (blockItems (parseNode handles bound) start count) s behind (Node.ItemsStandFor · items) Node.itemNodes := by
  refine makes_items (fun _ _ _ _ _ => rfl) ?_ ?_ hdata hall hbound hcount hkinds
  · intro kind hstarts hentry
    cases kind <;> simp_all [startsNode]
  · intro count s hkinds
    obtain ⟨mark, tokens, anchors, next, rfl, hbehind⟩ := exists_front hkinds
    exact ⟨[], _, rfl, hbehind, rfl, Numbered.nil _⟩

theorem makes_bareItems (hdata : ItemsAreData items) (hall : ∀ item ∈ items, item.IsParsed)
    (hbound : s.tokens.length ≤ bound) (hcount : s.tokens.length < count)
    (hend : ∀ kind ∈ behind.head?, kind = .key ∨ kind = .blockEnd)
    (hkinds : s.tokens.map (·.kind) = itemTokens items ++ behind) :
    Makes (bareItems (parseNode handles bound) start count) s behind (Node.ItemsStandFor · items) Node.itemNodes := by
  refine makes_items (fun _ _ _ _ _ => rfl) ?_ ?_ hdata hall hbound hcount hkinds
  · intro kind hstarts hentry
    cases kind <;> simp_all [startsNode]
  · intro count s hkinds
    refine ⟨[], s, ?_, hkinds, rfl, Numbered.nil _⟩
    obtain ⟨tokens, anchors, next⟩ := s
    cases tokens with
    | nil => rfl
    | cons token tokens =>
      obtain ⟨kind, mark⟩ := token
      have hkinds : kind :: tokens.map (·.kind) = behind := hkinds
      subst hkinds
      rcases hend kind rfl with rfl | rfl <;> rfl

theorem IsKey.isData {key : PrintTree} (h : IsKey key) : key.IsData := by
  obtain ⟨text, rfl, -⟩ := h
  exact ⟨rfl, .inr rfl⟩

/-- Behind an entry there is the mark of the next one, or the end of the mapping. -/
theorem entryTokens_front (entries : List (PrintTree × PrintTree)) (behind : List TokenKind) :
    ∀ kind ∈ (entryTokens entries ++ .blockEnd :: behind).head?, kind = .key ∨ kind = .blockEnd := by
  intro kind hkind
  cases entries with
  | nil =>
    cases hkind
    exact .inr rfl
  | cons entry others =>
    cases hkind
    exact .inl rfl

/-- Whether an entry of a mapping is over in front of a token of this kind. -/
def endsEntry (kind : TokenKind) : Bool := kind = .key || kind = .value || kind = .blockEnd

/-- The key and the value of an entry, behind its mark. -/
theorem makes_entry (handles : Handles) (start : Mark) (anchors : List Anchor) (next : NodeNumber)
    {key value : PrintTree} {position : Position} {tokens : List Token} (hkey : key.IsData ∧ key.IsParsed)
    (hvalue : value.IsData ∧ value.IsParsed)
    (hend : ∀ kind ∈ behind.head?, kind = .key ∨ kind = .blockEnd) (hbound : tokens.length < bound)
    (hkinds : tokens.map (·.kind) = tokensBehind .behindMark key ++ .value :: (tokensBehind position value ++ behind)) :
    ∃ keyNode s valueNode s',
      nodeOrEmpty (parseNode handles bound) .blockEntry endsEntry start ⟨tokens, anchors, next⟩ = .ok (keyNode, s)
      ∧ valueOrEmpty (parseNode handles bound) .blockEntry endsEntry s = .ok (valueNode, s')
      ∧ s'.tokens.map (·.kind) = behind ∧ keyNode.StandsFor key ∧ valueNode.StandsFor value
      ∧ Numbered next (keyNode.nodes ++ valueNode.nodes) s'.next := by
  have hover : ∀ kind, startsNode kind = true → endsEntry kind = false := by
    intro kind hstarts
    cases kind <;> simp_all [startsNode, endsEntry]
  have hkeyMade : Makes (nodeOrEmpty (parseNode handles bound) .blockEntry endsEntry start) ⟨tokens, anchors, next⟩
      (.value :: (tokensBehind position value ++ behind)) (·.StandsFor key) Node.nodes :=
    hkey.2.orEmpty hkey.1 .behindMark nofun nofun (fun kind hstarts _ => hover kind hstarts) hbound hkinds
  obtain ⟨keyNode, s, hkeyNode, hrest, hkeyStands, hkeyNumbers⟩ := hkeyMade
  obtain ⟨colon, tokens', anchors', next', rfl, hcolon⟩ := exists_front hrest
  have hlength := congrArg List.length hkinds
  have hlength' := congrArg List.length hcolon
  simp only [List.length_map, List.length_append, List.length_cons] at hlength hlength'
  have hvalueMade : Makes (nodeOrEmpty (parseNode handles bound) .blockEntry endsEntry (behindMark colon))
      ⟨tokens', anchors', next'⟩ behind (·.StandsFor value) Node.nodes := by
    refine hvalue.2.orEmpty hvalue.1 position nofun (fun _ => ⟨rfl, hend⟩) (fun kind hstarts _ => hover kind hstarts) ?_
      hcolon
    show tokens'.length < bound
    omega
  obtain ⟨valueNode, s', hvalueNode, hrest', hvalueStands, hvalueNumbers⟩ := hvalueMade
  exact ⟨keyNode, _, valueNode, s', hkeyNode, hvalueNode, hrest', hkeyStands, hvalueStands,
    hkeyNumbers.append hvalueNumbers⟩

theorem makes_blockEntries (hdata : EntriesAreData entries)
    (hall : ∀ entry ∈ entries, entry.1.IsParsed ∧ entry.2.IsParsed) (hbound : s.tokens.length ≤ bound)
    (hcount : s.tokens.length < count) (hkinds : s.tokens.map (·.kind) = entryTokens entries ++ .blockEnd :: behind) :
    Makes (blockEntries (parseNode handles bound) start count) s behind (Node.EntriesStandFor · entries)
      Node.entryNodes := by
  induction entries generalizing s count with
  | nil =>
    obtain ⟨count, rfl⟩ := Nat.exists_eq_add_one_of_ne_zero (Nat.ne_zero_of_lt hcount)
    obtain ⟨mark, tokens, anchors, next, rfl, hbehind⟩ := exists_front hkinds
    exact ⟨[], _, rfl, hbehind, rfl, Numbered.nil _⟩
  | cons entry others ih =>
    obtain ⟨key, value⟩ := entry
    obtain ⟨⟨hkey, hvalue⟩, hothers⟩ := List.forall_mem_cons.mp hall
    obtain ⟨hkeyData, hvalueData, hothersData⟩ := hdata
    simp only [entryTokens, List.cons_append, List.append_assoc] at hkinds
    obtain ⟨mark, tokens, anchors, next, rfl, hbehind⟩ := exists_front hkinds
    obtain ⟨count, rfl⟩ := Nat.exists_eq_add_one_of_ne_zero (Nat.ne_zero_of_lt hcount)
    obtain ⟨keyNode, s, valueNode, s', hkeyNode, hvalueNode, hrest, hkeyStands, hvalueStands, hnumbers⟩ :=
      makes_entry handles (behindMark mark) anchors next
        ⟨hkeyData.isData, hkey⟩ ⟨hvalueData, hvalue⟩ (entryTokens_front others behind) hbound hbehind
    have hlength := congrArg List.length hbehind
    have hlength' := congrArg List.length hrest
    simp only [List.length_map, List.length_append, List.length_cons] at hbound hcount hlength hlength'
    have hmore : Makes (blockEntries (parseNode handles bound) start count) s' behind (Node.EntriesStandFor · others)
        Node.entryNodes := ih hothersData hothers (by omega) (by omega) hrest
    obtain ⟨nodes, s'', hnodes, hrest', hstands, hnumbers'⟩ := hmore
    refine ⟨(keyNode, valueNode) :: nodes, s'', ?_, hrest', ⟨_, _, _, rfl, hkeyStands, hvalueStands, hstands⟩, ?_⟩
    · show (nodeOrEmpty (parseNode handles bound) .blockEntry endsEntry (behindMark mark) >>= fun key =>
        valueOrEmpty (parseNode handles bound) .blockEntry endsEntry >>= fun value =>
        blockEntries (parseNode handles bound) start count >>= fun others =>
        pure ((key, value) :: others) : NodeParser (List (Node × Node))) ⟨tokens, anchors, next⟩ = _
      rw [bind_of_ok hkeyNode, bind_of_ok hvalueNode, bind_of_ok hnodes]
      rfl
    · rw [Node.entryNodes, ← List.append_assoc]
      exact hnumbers.append hnumbers'

end Parts

/-- A scalar is parsed: its tag is that of its text, unless it is quoted. -/
theorem isParsed_scalar {tag : CoreTag} {text : List Char} (hdata : ScalarIsData tag text) :
    (PrintTree.scalar none tag text).IsParsed := by
  intro handles position place bound s behind _ _ hbound hkinds
  rw [tokensBehind_scalar] at hkinds
  obtain ⟨mark, tokens, anchors, next, rfl, hbehind⟩ := exists_front hkinds
  obtain ⟨bound, rfl⟩ := Nat.exists_eq_add_one_of_ne_zero (Nat.ne_zero_of_lt hbound)
  refine ⟨_, _, parseNode_scalar text _, hbehind, ⟨tag, ?_, rfl⟩, ⟨rfl, rfl⟩⟩
  rcases hdata.style with ⟨hstyle, -, -, hresolve⟩ | ⟨rfl, ⟨hstyle, -⟩ | hstyle⟩
  · simp [hstyle, hresolve]
  · simp [hstyle]
  · simp [hstyle]

theorem isParsed_items {items : List PrintTree} (hdata : ItemsAreData items) (hall : ∀ item ∈ items, item.IsParsed) :
    (PrintTree.sequence items).IsParsed := by
  intro handles position place bound s behind hplace hposition hbound hkinds
  obtain ⟨bound, rfl⟩ := Nat.exists_eq_add_one_of_ne_zero (Nat.ne_zero_of_lt hbound)
  by_cases hitems : items = []
  · subst hitems
    obtain ⟨mark, tokens, anchors, next, rfl, hend⟩ := exists_front hkinds
    obtain ⟨⟨kind, mark'⟩, tokens, rfl, rfl, hbehind⟩ := List.map_eq_cons_iff.mp hend
    exact ⟨_, _, parseNode_noItems mark', hbehind, ⟨rfl, [], rfl, rfl⟩, .cons rfl (.nil _)⟩
  · rw [tokensBehind_items hitems] at hkinds
    cases position with
    | behindMark =>
      rw [List.cons_append, List.append_assoc] at hkinds
      obtain ⟨mark, tokens, anchors, next, rfl, hbehind⟩ := exists_front hkinds
      have hlength : tokens.length ≤ bound := Nat.le_of_lt_succ (Nat.lt_of_succ_lt hbound)
      have hmakes : Makes (blockItems (parseNode handles bound) mark (tokens.length + 2)) ⟨tokens, anchors, next + 1⟩
          behind (Node.ItemsStandFor · items) Node.itemNodes :=
        makes_blockItems hdata hall hlength (Nat.lt_add_of_pos_right (by decide)) hbehind
      obtain ⟨nodes, s', hnodes, hrest, hstands, hnumbers⟩ := hmakes
      exact ⟨_, _, parseNode_blockItems hplace hnodes, hrest, ⟨rfl, items, rfl, hstands⟩, .cons rfl hnumbers⟩
    | behindKey =>
      obtain ⟨rfl, hend⟩ := hposition rfl
      obtain ⟨item, others, rfl⟩ := List.exists_cons_of_ne_nil hitems
      obtain ⟨mark, tokens, anchors, next, rfl, -⟩ := exists_front hkinds
      have hmakes : Makes (bareItems (parseNode handles bound) mark (tokens.length + 2))
          ⟨⟨.blockEntry, mark⟩ :: tokens, anchors, next + 1⟩ behind (Node.ItemsStandFor · (item :: others))
          Node.itemNodes :=
        makes_bareItems hdata hall (Nat.le_of_lt_succ hbound) (Nat.lt_succ_self _) hend hkinds
      obtain ⟨nodes, s', hnodes, hrest, hstands, hnumbers⟩ := hmakes
      exact ⟨_, _, parseNode_bareItems hnodes, hrest, ⟨rfl, _, rfl, hstands⟩, .cons rfl hnumbers⟩

theorem isParsed_entries {entries : List (PrintTree × PrintTree)} (hdata : EntriesAreData entries)
    (hall : ∀ entry ∈ entries, entry.1.IsParsed ∧ entry.2.IsParsed) :
    (PrintTree.mapping none false entries).IsParsed := by
  intro handles position place bound s behind hplace _ hbound hkinds
  obtain ⟨bound, rfl⟩ := Nat.exists_eq_add_one_of_ne_zero (Nat.ne_zero_of_lt hbound)
  by_cases hentries : entries = []
  · subst hentries
    obtain ⟨mark, tokens, anchors, next, rfl, hend⟩ := exists_front hkinds
    obtain ⟨⟨kind, mark'⟩, tokens, rfl, rfl, hbehind⟩ := List.map_eq_cons_iff.mp hend
    exact ⟨_, _, parseNode_noEntries mark', hbehind, ⟨rfl, [], rfl, rfl⟩, .cons rfl (.nil _)⟩
  · rw [tokensBehind_entries hentries, List.cons_append, List.append_assoc] at hkinds
    obtain ⟨mark, tokens, anchors, next, rfl, hbehind⟩ := exists_front hkinds
    have hlength : tokens.length ≤ bound := Nat.le_of_lt_succ (Nat.lt_of_succ_lt hbound)
    have hmakes : Makes (blockEntries (parseNode handles bound) mark (tokens.length + 1)) ⟨tokens, anchors, next + 1⟩
        behind (Node.EntriesStandFor · entries) Node.entryNodes :=
      makes_blockEntries hdata hall hlength (Nat.lt_succ_self _) hbehind
    obtain ⟨nodes, s', hnodes, hrest, hstands, hnumbers⟩ := hmakes
    exact ⟨_, _, parseNode_blockEntries hplace hnodes, hrest, ⟨rfl, entries, rfl, hstands⟩, .cons rfl hnumbers⟩

mutual

/-- A tree of data is parsed. -/
theorem isParsed_of_isData : ∀ {tree : PrintTree}, tree.IsData → tree.IsParsed
  | .alias _, h => h.elim
  | .scalar _ _ _, h => by
    obtain ⟨rfl, hscalar⟩ := h
    exact isParsed_scalar hscalar
  | .sequence _, h => isParsed_items h (itemsParsed_of_areData h)
  | .mapping _ _ _, h => by
    obtain ⟨rfl, rfl, hdata⟩ := h
    exact isParsed_entries hdata (entriesParsed_of_areData hdata)

theorem itemsParsed_of_areData : ∀ {items : List PrintTree}, ItemsAreData items → ∀ item ∈ items, item.IsParsed
  | [], _ => nofun
  | _ :: _, h => List.forall_mem_cons.mpr ⟨isParsed_of_isData h.1, itemsParsed_of_areData h.2⟩

theorem entriesParsed_of_areData : ∀ {entries : List (PrintTree × PrintTree)}, EntriesAreData entries →
    ∀ entry ∈ entries, entry.1.IsParsed ∧ entry.2.IsParsed
  | [], _ => nofun
  | (_, _) :: _, h => by
    obtain ⟨⟨text, rfl, -⟩, hvalue, hothers⟩ := h
    exact List.forall_mem_cons.mpr ⟨⟨isParsed_scalar (.inr rfl), isParsed_of_isData hvalue⟩,
      entriesParsed_of_areData hothers⟩

end

/-! ## Documents -/

/-- A document without a mark is its root. -/
theorem parseFirst_node {kind : TokenKind} {mark : Mark} {tokens : List Token} {anchors : List Anchor} {next : NodeNumber}
    {node : Node} {s : ParseState} (hstarts : startsNode kind = true)
    (h : parseNode standardHandles (tokens.length + 2) .block ⟨⟨kind, mark⟩ :: tokens, anchors, next⟩ = .ok (node, s)) :
    parseFirst ⟨⟨kind, mark⟩ :: tokens, anchors, next⟩ = .ok (some node, s) := by
  have hrun : parseFirst ⟨⟨kind, mark⟩ :: tokens, anchors, next⟩
      = (parseNode standardHandles (tokens.length + 2) .block ⟨⟨kind, mark⟩ :: tokens, anchors, next⟩ >>= fun r =>
        .ok (some r.1, r.2)) := by
    cases kind <;> first
      | rfl
      | cases hstarts
  rw [hrun, h]
  rfl

/-- The tokens of a tree of data, with the end of the text behind them, are a document whose root stands for the
tree. -/
theorem parseDocument_tokens {tree : PrintTree} (h : tree.IsData) {tokens : List Token}
    (htokens : tokens.map (·.kind) = tokensBehind .behindMark tree ++ [.streamEnd]) :
    ∃ node, parseDocument tokens = .ok (some node) ∧ node.StandsFor tree ∧ (node.nodes.map (·.number)).Nodup := by
  have hmark : Position.behindMark = .behindKey → Place.block = .blockEntry ∧
      ∀ kind ∈ [TokenKind.streamEnd].head?, kind = .key ∨ kind = .blockEnd := nofun
  have hmakes : Makes (parseNode standardHandles (tokens.length + 1) .block) ⟨tokens, [], 0⟩ [.streamEnd]
      (·.StandsFor tree) Node.nodes :=
    isParsed_of_isData h nofun hmark (Nat.lt_succ_self _) htokens
  obtain ⟨node, s, hnode, hrest, hstands, hnumbers⟩ := hmakes
  refine ⟨node, ?_, hstands, hnumbers.nodup⟩
  have hfirst : parseFirst ⟨tokens, [], 0⟩ = .ok (some node, s) := by
    obtain ⟨kind, kinds, hfront, hstarts, -⟩ := tokensBehind_front h .behindMark
    rw [hfront] at htokens
    obtain ⟨⟨kind, mark⟩, tokens, rfl, rfl, -⟩ := List.map_eq_cons_iff.mp htokens
    exact parseFirst_node hstarts hnode
  -- behind the root the text ends, so no second document follows
  have honly : parseOnly ⟨tokens, [], 0⟩ = .ok (some node, s) := by
    obtain ⟨mark, rest, anchors, next, rfl, hend⟩ := exists_front hrest
    show (parseFirst ⟨tokens, [], 0⟩ >>= _ : Except LoadError (Option Node × ParseState)) = _
    rw [hfirst]
    rfl
  rw [parseDocument, honly]
  show Except.ok (some (node.withOuter s.next)) = _
  rw [Node.withOuter, if_pos hstands.isClosed]

end PrintTree

end ResolverWiring.Yaml
