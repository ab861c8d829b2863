import ResolverWiring.Proofs.Results
import ResolverWiring.Proofs.Yaml.Denoting

/-!
# `Proofs.Yaml.Numbering` — the numbers of nodes

A node of a document can occur several times in its tree, since an alias is the node that it names. Its number tells
the occurrences of one node from those of others: nodes with the same number are the same
(`parseOnly_isIdentified`).

The invariant is about the nodes that are known so far (`ParseState.Knows`). A node takes its number when it starts,
and what the parser comes to know from then on has greater ones (`ParseState.Learns`), so none of the parts of the node
has its number. An alias is a known node, or a leaf with a number of its own. So every part of the parser gives known
nodes (`NodeParser.Numbers`).
-/

namespace ResolverWiring.Yaml

theorem Node.descendants_sequence (number : NodeNumber) (tag : Tag) (items : List Node) (mark : Mark) :
    (sequence number tag items mark).descendants = itemNodes items := (itemNodes_eq items).symm

theorem Node.descendants_mapping (number : NodeNumber) (tag : Tag) (entries : List (Node × Node)) (mark : Mark) :
    (mapping number tag entries mark).descendants = entryNodes entries := (entryNodes_eq entries).symm

/-- Whether the number of a node tells which one it is. -/
def Node.IsIdentified (root : Node) : Prop :=
  ∀ node ∈ root.nodes, ∀ other ∈ root.nodes, node.number = other.number → node = other

/-- Whether nodes are known to a parser: the next number is free, no two of them have the same number, and all nodes
that anchors name are among them. -/
structure ParseState.Knows (s : ParseState) (known : List Node) : Prop where
  below : ∀ node ∈ known, node.number < s.next
  same : ∀ node ∈ known, ∀ other ∈ known, node.number = other.number → node = other
  anchored : ∀ anchor ∈ s.anchors, ∀ node ∈ anchor.node?, node.nodes ⊆ known

/-- Whether a parser that runs from one state to another comes to know nodes: those known before, and others with
numbers that were free then. -/
structure ParseState.Learns (s s' : ParseState) (known known' : List Node) : Prop where
  knows : s'.Knows known'
  keeps : known ⊆ known'
  fresh : ∀ node ∈ known', node ∈ known ∨ s.next ≤ node.number
  next : s.next ≤ s'.next

namespace ParseState.Learns

variable {s s' s'' : ParseState} {known known' known'' : List Node}

theorem refl (h : s.Knows known) : s.Learns s known known :=
  ⟨h, List.Subset.refl _, fun _ hnode => .inl hnode, Nat.le_refl _⟩

theorem trans (h : s.Learns s' known known') (h' : s'.Learns s'' known' known'') : s.Learns s'' known known'' where
  knows := h'.knows
  keeps := List.Subset.trans h.keeps h'.keeps
  fresh := by
    intro node hnode
    rcases h'.fresh node hnode with hnode | hnext
    · exact h.fresh node hnode
    · exact .inr (h.next.trans hnext)
  next := h.next.trans h'.next

/-- A node that has taken the next number before its parts are parsed is known behind them. -/
theorem node {node : Node} (hknows : s.Knows known) (h : Learns { s with next := s.next + 1 } s' known known')
    (hnumber : node.number = s.next) : s.Learns s' known (node :: known') := by
  have hfresh : ∀ other ∈ known', other.number ≠ node.number := by
    intro other hother
    rw [hnumber]
    rcases h.fresh other hother with hbefore | hlater
    · exact Nat.ne_of_lt (hknows.below other hbefore)
    · exact Nat.ne_of_gt hlater
  have hnext : s.next < s'.next := h.next
  refine ⟨⟨?_, ?_, ?_⟩, List.subset_cons_of_subset _ h.keeps, ?_, hnext.le⟩
  · exact List.forall_mem_cons.mpr ⟨hnumber ▸ hnext, h.knows.below⟩
  · refine List.forall_mem_cons.mpr ⟨List.forall_mem_cons.mpr ⟨fun _ => rfl, ?_⟩, ?_⟩
    · intro other hother hsame
      exact absurd hsame.symm (hfresh other hother)
    · intro other hother
      refine List.forall_mem_cons.mpr ⟨fun hsame => absurd hsame (hfresh other hother), ?_⟩
      exact h.knows.same other hother
  · intro anchor hanchor inner hinner
    exact List.subset_cons_of_subset _ (h.knows.anchored anchor hanchor inner hinner)
  · refine List.forall_mem_cons.mpr ⟨.inr hnumber.ge, ?_⟩
    intro other hother
    exact (h.fresh other hother).imp_right Nat.le_of_succ_le

end ParseState.Learns

namespace NodeParser

theorem run_bind_eq_ok {α β : Type} {parser : NodeParser α} {f : α → NodeParser β} {s s' : ParseState} {b : β}
    (h : (parser >>= f) s = .ok (b, s')) : ∃ a between, parser s = .ok (a, between) ∧ f a between = .ok (b, s') := by
  obtain ⟨⟨a, between⟩, ha, hb⟩ := result_bind_eq_ok h
  exact ⟨a, between, ha, hb⟩

/-- Whether a parser that runs where the given nodes are known has a result whose nodes are known then. -/
def Numbers {α : Type} (given : List Node) (parser : NodeParser α) (nodes : α → List Node) : Prop :=
  ∀ ⦃s known a s'⦄, s.Knows known → given ⊆ known → parser s = .ok (a, s') →
    ∃ known', s.Learns s' known known' ∧ nodes a ⊆ known'

/-- A result without nodes. -/
abbrev noNodes {α : Type} (_ : α) : List Node := []

namespace Numbers

variable {α β : Type} {given : List Node} {parser : NodeParser α} {f : α → NodeParser β} {nodes : α → List Node}
  {others : β → List Node}

theorem pure {a : α} (h : nodes a ⊆ given) : Numbers given (Pure.pure a) nodes := by
  intro s known a s' hknows hgiven hrun
  cases hrun
  exact ⟨known, .refl hknows, List.Subset.trans h hgiven⟩

theorem fail (fault : Fault) : Numbers given (NodeParser.fail fault) nodes := by
  intro s known a s' _ _ hrun
  cases hrun

theorem bind (h : Numbers given parser nodes) (hf : ∀ a, Numbers (given ++ nodes a) (f a) others) :
    Numbers given (parser >>= f) others := by
  intro s known b s' hknows hgiven hrun
  obtain ⟨a, between, ha, hb⟩ := run_bind_eq_ok hrun
  obtain ⟨known', hlearns, hnodes⟩ := h hknows hgiven ha
  obtain ⟨known'', hlearns', hothers⟩ :=
    hf a hlearns.knows (List.append_subset.mpr ⟨List.Subset.trans hgiven hlearns.keeps, hnodes⟩) hb
  exact ⟨known'', hlearns.trans hlearns', hothers⟩

/-- What a step without nodes leaves to the next one. -/
theorem andThen (h : Numbers given parser noNodes) (hf : ∀ a, Numbers given (f a) others) :
    Numbers given (parser >>= f) others := by
  apply h.bind
  intro a
  rw [List.append_nil]
  exact hf a

theorem ite {c : Prop} [Decidable c] {first second : NodeParser α} (hfirst : Numbers given first nodes)
    (hsecond : Numbers given second nodes) : Numbers given (if c then first else second) nodes := by
  split
  · exact hfirst
  · exact hsecond

theorem bounded {p : Nat → NodeParser α} (h : ∀ bound, Numbers given (p bound) nodes) :
    Numbers given (NodeParser.bounded p) nodes :=
  fun _ _ _ _ hknows hgiven hrun => h _ hknows hgiven hrun

/-- A step that leaves the anchors and the next number as they are. -/
theorem of_same (h : ∀ s a s', parser s = .ok (a, s') → s'.anchors = s.anchors ∧ s'.next = s.next) :
    Numbers given parser noNodes := by
  intro s known a s' hknows _ hrun
  obtain ⟨hanchors, hnext⟩ := h s a s' hrun
  have hknows' : s'.Knows known := ⟨hnext ▸ hknows.below, hknows.same, hanchors ▸ hknows.anchored⟩
  exact ⟨known, ⟨hknows', List.Subset.refl _, fun _ hnode => .inl hnode, hnext.ge⟩, List.nil_subset _⟩

/-- A node that takes the next number, and is made of given nodes and of what is parsed then. -/
theorem node {parts : NodeNumber → NodeParser β} (build : NodeNumber → β → Node) {f : NodeNumber → β → NodeParser α}
    (hparts : ∀ number, Numbers given (parts number) others) (hnumber : ∀ number b, (build number b).number = number)
    (hbelow : ∀ number b, (build number b).descendants ⊆ given ++ others b)
    (hf : ∀ number b, Numbers (given ++ (build number b).nodes) (f number b) nodes) :
    Numbers given (newNumber >>= fun number => parts number >>= f number) nodes := by
  intro s known a s' hknows hgiven hrun
  obtain ⟨number, started, hnext, hrun⟩ := run_bind_eq_ok hrun
  cases hnext
  obtain ⟨b, between, hb, hrun⟩ := run_bind_eq_ok hrun
  have hnumbered : ParseState.Knows { s with next := s.next + 1 } known :=
    ⟨fun node hnode => Nat.lt_succ_of_lt (hknows.below node hnode), hknows.same, hknows.anchored⟩
  obtain ⟨known', hlearns, hothers⟩ := hparts s.next hnumbered hgiven hb
  have hlearns : s.Learns between known (build s.next b :: known') := .node hknows hlearns (hnumber s.next b)
  have hgiven' : given ++ (build s.next b).nodes ⊆ build s.next b :: known' := by
    have hknown : given ⊆ build s.next b :: known' := List.Subset.trans hgiven hlearns.keeps
    rw [Node.nodes_eq]
    refine List.append_subset.mpr ⟨hknown, List.cons_subset.mpr ⟨List.mem_cons_self, ?_⟩⟩
    refine List.Subset.trans (hbelow s.next b) (List.append_subset.mpr ⟨hknown, ?_⟩)
    exact List.subset_cons_of_subset _ hothers
  obtain ⟨known'', hlearns', hnodes⟩ := hf s.next b hlearns.knows hgiven' hrun
  exact ⟨known'', hlearns.trans hlearns', hnodes⟩

/-- A leaf that takes the next number. -/
theorem leaf (build : NodeNumber → Node) (hnumber : ∀ number, (build number).number = number)
    (hbelow : ∀ number, (build number).descendants = []) :
    Numbers given (newNumber >>= fun number => Pure.pure (build number)) Node.nodes := by
  have hnothing : Numbers given (Pure.pure () : NodeParser Unit) noNodes := .pure (List.nil_subset _)
  have hleaf : Numbers given (newNumber >>= fun number => Pure.pure () >>= fun _ => Pure.pure (build number))
      Node.nodes := by
    refine node (fun number _ => build number) (fun _ => hnothing) (fun number _ => hnumber number) ?_ ?_
    · intro number _
      rw [hbelow]
      exact List.nil_subset _
    · exact fun _ _ => .pure (List.subset_append_right _ _)
  simpa only [pure_bind] using hleaf

end Numbers

/-! ## Single tokens and anchors -/

section Steps

variable {given : List Node}

theorem numbers_peek : Numbers given peek noNodes := by
  refine .of_same fun s a s' hrun => ?_
  unfold peek at hrun
  split at hrun
  · cases hrun
    exact ⟨rfl, rfl⟩
  · split at hrun
    · cases hrun
    · cases hrun
      exact ⟨rfl, rfl⟩

theorem numbers_peekKind : Numbers given peekKind noNodes :=
  numbers_peek.andThen fun _ => .pure (List.nil_subset _)

theorem numbers_advance : Numbers given advance noNodes := by
  refine .of_same fun s a s' hrun => ?_
  cases hrun
  exact ⟨rfl, rfl⟩

theorem numbers_takeToken (kind : TokenKind) : Numbers given (takeToken kind) noNodes :=
  numbers_peekKind.andThen fun _ =>
    .ite (numbers_advance.andThen fun _ => .pure (List.nil_subset _)) (.pure (List.nil_subset _))

theorem numbers_emptyNode (mark : Mark) : Numbers given (emptyNode mark) Node.nodes :=
  .leaf (.scalar · (.core .null) [] mark) (fun _ => rfl) fun _ => rfl

theorem numbers_openAnchor (name? : Option String) (number : NodeNumber) (tag : Tag) (kind : NodeKind) (mark : Mark) :
    Numbers given (openAnchor name? number tag kind mark) noNodes := by
  intro s known a s' hknows _ hrun
  refine ⟨known, ?_, List.nil_subset _⟩
  cases name? with
  | none =>
    cases hrun
    exact .refl hknows
  | some name =>
    obtain ⟨s₁, s₂, hget, hrun⟩ := run_bind_eq_ok hrun
    cases hget
    cases hfound : s.anchors.find? (·.name == name) with
    | some first =>
      rw [hfound] at hrun
      cases hrun
    | none =>
      rw [hfound] at hrun
      cases hrun
      have hanchored : ∀ node ∈ (none : Option Node), node.nodes ⊆ known := fun _ hnode => absurd hnode (by simp)
      have hknows' : ParseState.Knows { s with anchors := ⟨name, number, tag, kind, mark, none⟩ :: s.anchors } known :=
        ⟨hknows.below, hknows.same, List.forall_mem_cons.mpr ⟨hanchored, hknows.anchored⟩⟩
      exact ⟨hknows', List.Subset.refl _, fun _ hnode => .inl hnode, Nat.le_refl _⟩

theorem numbers_closeAnchor (name? : Option String) {node : Node} (h : node.nodes ⊆ given) :
    Numbers given (closeAnchor name? node) Node.nodes := by
  cases name? with
  | none => exact .pure h
  | some name =>
    intro s known a s' hknows hgiven hrun
    cases hrun
    refine ⟨known, ⟨⟨hknows.below, hknows.same, ?_⟩, List.Subset.refl _, fun _ hnode => .inl hnode, Nat.le_refl _⟩,
      List.Subset.trans h hgiven⟩
    intro anchor hanchor inner hinner
    obtain ⟨before, hbefore, rfl⟩ := List.mem_map.mp hanchor
    split at hinner
    · cases hinner
      exact fun _ hnode => hgiven (h hnode)
    · exact hknows.anchored before hbefore inner hinner

/-- A node whose parts are parsed between its anchor and its end. -/
theorem numbers_complete {β : Type} {parts : NodeNumber → NodeParser β} {others : β → List Node}
    (name? : Option String) (build : NodeNumber → β → Node) (hparts : ∀ number, Numbers given (parts number) others)
    (hnumber : ∀ number b, (build number b).number = number)
    (hbelow : ∀ number b, (build number b).descendants ⊆ others b) :
    Numbers given (newNumber >>= fun number => parts number >>= fun b => closeAnchor name? (build number b))
      Node.nodes := by
  refine .node build hparts hnumber (fun number b => ?_) fun number b => ?_
  · exact List.subset_append_of_subset_right _ (hbelow number b)
  · exact numbers_closeAnchor name? (List.subset_append_right _ _)

theorem numbers_resolveAlias (name : String) (mark : Mark) : Numbers given (resolveAlias name mark) Node.nodes := by
  intro s known a s' hknows hgiven hrun
  obtain ⟨s₁, s₂, hget, hrun⟩ := run_bind_eq_ok hrun
  cases hget
  cases hfound : s.anchors.find? (·.name == name) with
  | none =>
    rw [hfound] at hrun
    cases hrun
  | some anchor =>
    simp only [hfound] at hrun
    cases hnode? : anchor.node? with
    | none =>
      rw [hnode?] at hrun
      have hleaf : Numbers given (newNumber >>= fun number =>
          pure (.enclosing number anchor.number anchor.tag anchor.kind anchor.mark)) Node.nodes :=
        .leaf (.enclosing · anchor.number anchor.tag anchor.kind anchor.mark) (fun _ => rfl) fun _ => rfl
      exact hleaf hknows hgiven hrun
    | some node =>
      rw [hnode?] at hrun
      cases hrun
      exact ⟨known, .refl hknows, hknows.anchored anchor (List.mem_of_find?_eq_some hfound) _ hnode?⟩

theorem numbers_takeAnchor : Numbers given takeAnchor noNodes := by
  refine numbers_peekKind.andThen fun kind => ?_
  split
  · exact numbers_advance.andThen fun _ => .pure (List.nil_subset _)
  · exact .pure (List.nil_subset _)

theorem numbers_takeTag : Numbers given takeTag noNodes := by
  refine numbers_peekKind.andThen fun kind => ?_
  split
  · exact numbers_advance.andThen fun _ => .pure (List.nil_subset _)
  · exact .pure (List.nil_subset _)

theorem numbers_parseProperties : Numbers given parseProperties noNodes := by
  refine numbers_peek.andThen fun first => ?_
  split
  · exact numbers_advance.andThen fun _ => numbers_peek.andThen fun _ =>
      numbers_takeTag.andThen fun _ => .pure (List.nil_subset _)
  · exact numbers_advance.andThen fun _ => numbers_takeAnchor.andThen fun _ => .pure (List.nil_subset _)
  · exact .pure (List.nil_subset _)

theorem numbers_expandTag (handles : Handles) (properties : Properties) :
    Numbers given (expandTag handles properties) noNodes := by
  unfold expandTag
  split
  · exact .pure (List.nil_subset _)
  · exact .pure (List.nil_subset _)
  · split
    · exact .pure (List.nil_subset _)
    · exact .fail _

theorem numbers_unexpected {α : Type} {nodes : α → List Node} (context : Context) (start : Mark)
    (problem : String → Problem) : Numbers given (unexpected context start problem) nodes :=
  numbers_peek.andThen fun _ => .fail _

theorem numbers_separator (context : Context) (start : Mark) (wanted : String) (first : Bool) :
    Numbers given (separator context start wanted first) noNodes := by
  refine .ite (.pure (List.nil_subset _)) ((numbers_takeToken _).andThen fun _ => ?_)
  exact .ite (.pure (List.nil_subset _)) (numbers_unexpected _ _ _)

end Steps

/-! ## Collections -/

section Collections

variable {given : List Node} {inner : Place → NodeParser Node}
  (hinner : ∀ given place, Numbers given (inner place) Node.nodes)
include hinner

theorem numbers_nodeOrEmpty (place : Place) (isOver : TokenKind → Bool) (mark : Mark) :
    Numbers given (nodeOrEmpty inner place isOver mark) Node.nodes :=
  numbers_peekKind.andThen fun _ => .ite (numbers_emptyNode mark) (hinner given place)

theorem numbers_valueOrEmpty (place : Place) (isOver : TokenKind → Bool) :
    Numbers given (valueOrEmpty inner place isOver) Node.nodes := by
  refine numbers_peek.andThen fun token => .ite (numbers_advance.andThen fun _ => ?_) (numbers_emptyNode _)
  exact numbers_nodeOrEmpty hinner place isOver _

omit hinner in
/-- A known item in front of others. -/
theorem numbers_consItem {item : Node} {others : NodeParser (List Node)} (hitem : item.nodes ⊆ given)
    (hothers : Numbers given others Node.itemNodes) :
    Numbers given (others >>= fun items => pure (item :: items)) Node.itemNodes :=
  hothers.bind fun _ => .pure
    (List.append_subset.mpr ⟨List.subset_append_of_subset_left _ hitem, List.subset_append_right _ _⟩)

omit hinner in
/-- A known entry in front of others. -/
theorem numbers_consEntry {key value : Node} {others : NodeParser (List (Node × Node))} (hkey : key.nodes ⊆ given)
    (hvalue : value.nodes ⊆ given) (hothers : Numbers given others Node.entryNodes) :
    Numbers given (others >>= fun entries => pure ((key, value) :: entries)) Node.entryNodes := by
  refine hothers.bind fun _ => .pure (List.append_subset.mpr ⟨?_, List.append_subset.mpr ⟨?_, ?_⟩⟩)
  · exact List.subset_append_of_subset_left _ hkey
  · exact List.subset_append_of_subset_left _ hvalue
  · exact List.subset_append_right _ _

theorem numbers_blockItems (start : Mark) (bound : Nat) :
    Numbers given (blockItems inner start bound) Node.itemNodes := by
  induction bound generalizing given with
  | zero => exact .fail _
  | succ bound ih =>
    refine numbers_peek.andThen fun token => ?_
    split
    · refine numbers_advance.andThen fun _ => (numbers_nodeOrEmpty hinner _ _ _).bind fun item => ?_
      exact numbers_consItem (List.subset_append_right _ _) ih
    · exact numbers_advance.andThen fun _ => .pure (List.nil_subset _)
    · exact numbers_unexpected _ _ _

theorem numbers_bareItems (start : Mark) (bound : Nat) :
    Numbers given (bareItems inner start bound) Node.itemNodes := by
  induction bound generalizing given with
  | zero => exact .fail _
  | succ bound ih =>
    refine numbers_peek.andThen fun token => ?_
    split
    · refine numbers_advance.andThen fun _ => (numbers_nodeOrEmpty hinner _ _ _).bind fun item => ?_
      exact numbers_consItem (List.subset_append_right _ _) ih
    · exact .pure (List.nil_subset _)

theorem numbers_flowPair (mark : Mark) : Numbers given (flowPair inner mark) fun entry => Node.entryNodes [entry] := by
  refine (numbers_nodeOrEmpty hinner _ _ _).bind fun key => (numbers_valueOrEmpty hinner _ _).bind fun value => .pure ?_
  simp [Node.entryNodes]

theorem numbers_flowItems (start : Mark) (first : Bool) (bound : Nat) :
    Numbers given (flowItems inner start first bound) Node.itemNodes := by
  induction bound generalizing given first with
  | zero => exact .fail _
  | succ bound ih =>
    refine (numbers_takeToken _).andThen fun _ => .ite (.pure (List.nil_subset _)) ?_
    refine (numbers_separator _ _ _ _).andThen fun _ => ?_
    refine (numbers_takeToken _).andThen fun _ => .ite (.pure (List.nil_subset _)) ?_
    refine numbers_peek.andThen fun token => .ite ?_ ?_
    · -- an item that is a key becomes a mapping of its own
      refine numbers_advance.andThen fun _ => ?_
      refine .node (fun number entry => .mapping number (.core .mapping) [entry] token.mark)
        (fun _ => numbers_flowPair hinner token.mark) (fun _ _ => rfl) (fun number entry => ?_) fun number entry => ?_
      · rw [Node.descendants_mapping]
        exact List.subset_append_right _ _
      · refine Numbers.bind (.pure (List.subset_append_right _ _)) fun item => ?_
        exact numbers_consItem (List.subset_append_right _ _) (ih false)
    · refine (hinner _ _).bind fun item => ?_
      exact numbers_consItem (List.subset_append_right _ _) (ih false)

theorem numbers_blockEntries (start : Mark) (bound : Nat) :
    Numbers given (blockEntries inner start bound) Node.entryNodes := by
  induction bound generalizing given with
  | zero => exact .fail _
  | succ bound ih =>
    refine numbers_peek.andThen fun token => ?_
    split
    · refine numbers_advance.andThen fun _ => (numbers_nodeOrEmpty hinner _ _ _).bind fun key => ?_
      refine (numbers_valueOrEmpty hinner _ _).bind fun value => numbers_consEntry ?_ ?_ ih
      · exact List.subset_append_of_subset_left _ (List.subset_append_right _ _)
      · exact List.subset_append_right _ _
    · exact numbers_advance.andThen fun _ => .pure (List.nil_subset _)
    · exact numbers_unexpected _ _ _

theorem numbers_flowEntries (start : Mark) (first : Bool) (bound : Nat) :
    Numbers given (flowEntries inner start first bound) Node.entryNodes := by
  induction bound generalizing given first with
  | zero => exact .fail _
  | succ bound ih =>
    refine (numbers_takeToken _).andThen fun _ => .ite (.pure (List.nil_subset _)) ?_
    refine (numbers_separator _ _ _ _).andThen fun _ => ?_
    refine (numbers_takeToken _).andThen fun _ => .ite (.pure (List.nil_subset _)) ?_
    refine numbers_peek.andThen fun token => .ite ?_ ?_
    · refine numbers_advance.andThen fun _ => (numbers_nodeOrEmpty hinner _ _ _).bind fun key => ?_
      refine (numbers_valueOrEmpty hinner _ _).bind fun value => numbers_consEntry ?_ ?_ (ih false)
      · exact List.subset_append_of_subset_left _ (List.subset_append_right _ _)
      · exact List.subset_append_right _ _
    · refine (hinner _ _).bind fun key => numbers_peek.andThen fun _ => (numbers_emptyNode _).bind fun value => ?_
      refine numbers_consEntry ?_ ?_ (ih false)
      · exact List.subset_append_of_subset_left _ (List.subset_append_right _ _)
      · exact List.subset_append_right _ _

end Collections

/-! ## Nodes -/

section Nodes

variable {given : List Node}

/-- A sequence whose items are parsed. -/
theorem numbers_sequence (anchor? : Option String) (tag : Tag) (mark : Mark) {parts : NodeParser (List Node)}
    (h : Numbers given parts Node.itemNodes) :
    Numbers given (newNumber >>= fun number => openAnchor anchor? number tag .sequence mark >>= fun _ =>
      parts >>= fun items => closeAnchor anchor? (.sequence number tag items mark)) Node.nodes := by
  have hparts (number : NodeNumber) : Numbers given
      (openAnchor anchor? number tag .sequence mark >>= fun _ => parts) Node.itemNodes :=
    (numbers_openAnchor anchor? number tag .sequence mark).andThen fun _ => h
  have hbelow (number : NodeNumber) (items : List Node) :
      (Node.sequence number tag items mark).descendants ⊆ Node.itemNodes items := by
    rw [Node.descendants_sequence]
    exact List.Subset.refl _
  have hcomplete := numbers_complete anchor? (fun number items => .sequence number tag items mark) hparts
    (fun _ _ => rfl) hbelow
  simpa only [bind_assoc] using hcomplete

/-- A mapping whose entries are parsed, behind the token that starts it. -/
theorem numbers_mapping (anchor? : Option String) (tag : Tag) (mark : Mark) {parts : NodeParser (List (Node × Node))}
    (h : Numbers given parts Node.entryNodes) :
    Numbers given (newNumber >>= fun number => openAnchor anchor? number tag .mapping mark >>= fun _ =>
      advance >>= fun _ => parts >>= fun entries => closeAnchor anchor? (.mapping number tag entries mark))
      Node.nodes := by
  have hparts (number : NodeNumber) : Numbers given
      (openAnchor anchor? number tag .mapping mark >>= fun _ => advance >>= fun _ => parts) Node.entryNodes :=
    (numbers_openAnchor anchor? number tag .mapping mark).andThen fun _ => numbers_advance.andThen fun _ => h
  have hbelow (number : NodeNumber) (entries : List (Node × Node)) :
      (Node.mapping number tag entries mark).descendants ⊆ Node.entryNodes entries := by
    rw [Node.descendants_mapping]
    exact List.Subset.refl _
  have hcomplete := numbers_complete anchor? (fun number entries => .mapping number tag entries mark) hparts
    (fun _ _ => rfl) hbelow
  simpa only [bind_assoc] using hcomplete

theorem numbers_scalar (anchor? : Option String) (tag : Tag) (text : List Char) (mark : Mark) :
    Numbers given (newNumber >>= fun number => openAnchor anchor? number tag .scalar mark >>= fun _ =>
      closeAnchor anchor? (.scalar number tag text mark)) Node.nodes :=
  numbers_complete anchor? (fun number _ => .scalar number tag text mark)
    (fun number => numbers_openAnchor anchor? number tag .scalar mark) (fun _ _ => rfl) fun _ _ => List.nil_subset _

theorem numbers_parseContent {inner : Place → NodeParser Node}
    (hinner : ∀ given place, Numbers given (inner place) Node.nodes) (handles : Handles) (place : Place)
    (properties : Properties) : Numbers given (parseContent inner handles place properties) Node.nodes := by
  refine (numbers_expandTag handles properties).andThen fun tag? => numbers_peek.andThen fun token => ?_
  dsimp only
  split
  · exact numbers_advance.andThen fun _ => numbers_scalar _ _ _ _
  · exact numbers_sequence _ _ _ (.bounded fun bound => numbers_advance.andThen fun _ => numbers_flowItems hinner _ _ _)
  · exact numbers_mapping _ _ _ (.bounded fun bound => numbers_flowEntries hinner _ _ _)
  · refine .ite ?_ (.ite ?_ (.ite ?_ (.ite ?_ (numbers_unexpected _ _ _))))
    · exact numbers_sequence _ _ _ (.bounded fun bound => numbers_bareItems hinner _ _)
    · exact numbers_sequence _ _ _ (.bounded fun bound =>
        numbers_advance.andThen fun _ => numbers_blockItems hinner _ _)
    · exact numbers_mapping _ _ _ (.bounded fun bound => numbers_blockEntries hinner _ _)
    · exact numbers_scalar _ _ _ _

theorem numbers_parseNode (handles : Handles) (bound : Nat) (given : List Node) (place : Place) :
    Numbers given (parseNode handles bound place) Node.nodes := by
  induction bound generalizing given place with
  | zero => exact numbers_peek.andThen fun _ => .fail _
  | succ bound ih =>
    refine numbers_peek.andThen fun token => ?_
    split
    · exact numbers_advance.andThen fun _ => numbers_resolveAlias _ _
    · exact numbers_parseProperties.andThen fun properties => numbers_parseContent ih handles place properties

end Nodes

/-! ## Documents -/

section Documents

variable {given : List Node}

theorem numbers_parseDirectives (versionSeen : Bool) (handles : Handles) (bound : Nat) :
    Numbers given (parseDirectives versionSeen handles bound) noNodes := by
  induction bound generalizing versionSeen handles with
  | zero => exact .pure (List.nil_subset _)
  | succ bound ih =>
    refine numbers_peek.andThen fun token => ?_
    split
    · exact numbers_advance.andThen fun _ => .ite (.fail _) (.ite (.fail _) (ih _ _))
    · exact numbers_advance.andThen fun _ => .ite (.fail _) (ih _ _)
    · exact numbers_advance.andThen fun _ => ih _ _
    · exact .pure (List.nil_subset _)

theorem numbers_skipDocumentEnds (bound : Nat) : Numbers given (skipDocumentEnds bound) noNodes := by
  induction bound with
  | zero => exact .pure (List.nil_subset _)
  | succ bound ih => exact (numbers_takeToken _).andThen fun _ => .ite ih (.pure (List.nil_subset _))

theorem numbers_parseDocumentStart : Numbers given parseDocumentStart noNodes := by
  refine (Numbers.bounded numbers_skipDocumentEnds).andThen fun _ => numbers_peek.andThen fun token => ?_
  refine .ite (.pure (List.nil_subset _)) ?_
  refine (Numbers.bounded fun bound => numbers_parseDirectives _ _ bound).andThen fun handles => ?_
  refine (numbers_takeToken _).andThen fun _ => .ite (.pure (List.nil_subset _)) ?_
  exact numbers_peek.andThen fun _ => .fail _

theorem numbers_parseRoot (handles : Handles) : Numbers given (parseRoot handles) Node.nodes := by
  refine numbers_peek.andThen fun token => ?_
  split
  · exact numbers_emptyNode _
  · exact numbers_emptyNode _
  · exact numbers_emptyNode _
  · exact numbers_emptyNode _
  · exact .bounded fun bound => numbers_parseNode handles bound _ _

/-- The nodes of a document that may be missing. -/
def rootNodes (root? : Option Node) : List Node := root?.elim [] Node.nodes

/-- A node that is there. -/
theorem numbers_some {parser : NodeParser Node} (h : Numbers given parser Node.nodes) :
    Numbers given (parser >>= fun root => pure (some root)) rootNodes :=
  h.bind fun _ => .pure (List.subset_append_right _ _)

theorem numbers_parseFirst : Numbers given parseFirst rootNodes := by
  have hmarked : Numbers given parseFirst.marked rootNodes := by
    refine numbers_parseDocumentStart.andThen fun start => ?_
    split
    · exact .pure (List.nil_subset _)
    · exact numbers_some (numbers_parseRoot _)
  refine numbers_peekKind.andThen fun kind => ?_
  split
  · exact hmarked
  · exact hmarked
  · exact .pure (List.nil_subset _)
  · exact numbers_some (.bounded fun bound => numbers_parseNode standardHandles bound _ _)

theorem numbers_parseOnly : Numbers given parseOnly rootNodes := by
  refine numbers_parseFirst.bind fun root? => ?_
  split
  · exact .pure (List.nil_subset _)
  · refine (numbers_takeToken _).andThen fun _ => numbers_parseDocumentStart.andThen fun start => ?_
    split
    · exact .pure (List.subset_append_right _ _)
    · exact .fail _

end Documents

end NodeParser

/-- Nodes below the root of a document that have the same number are the same, and the next number is free. -/
theorem NodeParser.parseOnly_isIdentified {tokens : List Token} {root : Node} {s : ParseState}
    (h : parseOnly ⟨tokens, [], 0⟩ = .ok (some root, s)) :
    root.IsIdentified ∧ ∀ node ∈ root.nodes, node.number < s.next := by
  have hstart : ParseState.Knows ⟨tokens, [], 0⟩ [] := ⟨nofun, nofun, nofun⟩
  obtain ⟨known, hlearns, hnodes⟩ := numbers_parseOnly hstart (List.nil_subset _) h
  refine ⟨?_, fun node hnode => hlearns.knows.below node (hnodes hnode)⟩
  intro node hnode other hother hsame
  exact hlearns.knows.same node (hnodes hnode) other (hnodes hother) hsame

end ResolverWiring.Yaml
