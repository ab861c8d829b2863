import ResolverWiring.Proofs.Yaml.Numbering

/-!
# `Proofs.Yaml.Outer` — the numbers of nodes where outer mappings are merged

A mapping that is merged into what stands inside it takes the place of a leaf, with the number of the leaf. Its parts
are nodes of the document in which no leaf stands, and leaves with numbers that were free. So nodes with the same
number are the same, as before (`parseDocument_isIdentified`).

Replacing leaves does not depend on where they stand: each node of the new tree is either what has become of a node of
the old one, or the new leaf for one (`nodes_mapLeaves`).
-/

namespace ResolverWiring.Yaml

namespace Node

variable {f : Node → Node} {root node inner : Node} {next : NodeNumber}

/-! ## Replacing leaves -/

theorem isClosed_mono (h : node.isClosed = true) (hinner : inner ∈ node.nodes) : inner.isClosed = true :=
  List.all_eq_true.mpr fun _ hbelow => List.all_eq_true.mp h _ (nodes_trans hinner hbelow)

mutual

/-- A tree without leaves stays as it is. -/
theorem mapLeaves_of_isClosed : ∀ {node : Node}, node.isClosed = true → node.mapLeaves f = node
  | .scalar _ _ _ _, _ => rfl
  | .sequence _ _ _ _, h => by rw [mapLeaves, mapItemLeaves_of_isClosed h]
  | .mapping _ _ _ _, h => by rw [mapLeaves, mapEntryLeaves_of_isClosed h]
  | .enclosing _ _ _ _ _, h => by cases h

theorem mapItemLeaves_of_isClosed : ∀ {items : List Node}, (itemNodes items).all (·.target?.isNone) = true →
    mapItemLeaves f items = items
  | [], _ => rfl
  | _ :: _, h => by
    rw [itemNodes, List.all_append, Bool.and_eq_true] at h
    rw [mapItemLeaves, mapLeaves_of_isClosed h.1, mapItemLeaves_of_isClosed h.2]

theorem mapEntryLeaves_of_isClosed : ∀ {entries : List (Node × Node)},
    (entryNodes entries).all (·.target?.isNone) = true → mapEntryLeaves f entries = entries
  | [], _ => rfl
  | (_, _) :: _, h => by
    rw [entryNodes, List.all_append, List.all_append, Bool.and_eq_true, Bool.and_eq_true] at h
    rw [mapEntryLeaves, mapLeaves_of_isClosed h.1, mapLeaves_of_isClosed h.2.1, mapEntryLeaves_of_isClosed h.2.2]

end

theorem number_mapLeaves (hf : ∀ leaf, (f leaf).number = leaf.number) (node : Node) :
    (node.mapLeaves f).number = node.number := by
  cases node with
  | enclosing number target tag kind mark => exact hf _
  | _ => rfl

mutual

/-- Where leaves have been replaced, a property holds of all nodes if it holds of what has become of each node that was
there, and of all nodes below what has come in place of a leaf. -/
theorem nodes_mapLeaves {P : Node → Prop} : ∀ {node : Node}, (∀ old ∈ node.nodes, P (old.mapLeaves f)) →
    (∀ leaf ∈ node.nodes, leaf.target?.isSome → ∀ inner ∈ (f leaf).nodes, P inner) →
    ∀ inner ∈ (node.mapLeaves f).nodes, P inner
  | .scalar _ _ _ _, hold, _ => List.forall_mem_singleton.mpr (hold _ (mem_nodes_self _))
  | .sequence _ _ _ _, hold, hleaf =>
    List.forall_mem_cons.mpr ⟨hold _ (mem_nodes_self _), itemNodes_mapLeaves
      (fun old h => hold old (List.mem_cons_of_mem _ h)) fun leaf h => hleaf leaf (List.mem_cons_of_mem _ h)⟩
  | .mapping _ _ _ _, hold, hleaf =>
    List.forall_mem_cons.mpr ⟨hold _ (mem_nodes_self _), entryNodes_mapLeaves
      (fun old h => hold old (List.mem_cons_of_mem _ h)) fun leaf h => hleaf leaf (List.mem_cons_of_mem _ h)⟩
  | .enclosing _ _ _ _ _, _, hleaf => hleaf _ (mem_nodes_self _) rfl

theorem itemNodes_mapLeaves {P : Node → Prop} : ∀ {items : List Node},
    (∀ old ∈ itemNodes items, P (old.mapLeaves f)) →
    (∀ leaf ∈ itemNodes items, leaf.target?.isSome → ∀ inner ∈ (f leaf).nodes, P inner) →
    ∀ inner ∈ itemNodes (mapItemLeaves f items), P inner
  | [], _, _ => nofun
  | _ :: _, hold, hleaf => by
    rw [itemNodes, List.forall_mem_append] at hold hleaf
    rw [mapItemLeaves, itemNodes, List.forall_mem_append]
    exact ⟨nodes_mapLeaves hold.1 hleaf.1, itemNodes_mapLeaves hold.2 hleaf.2⟩

theorem entryNodes_mapLeaves {P : Node → Prop} : ∀ {entries : List (Node × Node)},
    (∀ old ∈ entryNodes entries, P (old.mapLeaves f)) →
    (∀ leaf ∈ entryNodes entries, leaf.target?.isSome → ∀ inner ∈ (f leaf).nodes, P inner) →
    ∀ inner ∈ entryNodes (mapEntryLeaves f entries), P inner
  | [], _, _ => nofun
  | (_, _) :: _, hold, hleaf => by
    rw [entryNodes, List.forall_mem_append, List.forall_mem_append] at hold hleaf
    rw [mapEntryLeaves, entryNodes, List.forall_mem_append, List.forall_mem_append]
    exact ⟨nodes_mapLeaves hold.1 hleaf.1, nodes_mapLeaves hold.2.1 hleaf.2.1,
      entryNodes_mapLeaves hold.2.2 hleaf.2.2⟩

end

/-! ## Entries from outside -/

/-- A part of a mapping is seen from inside as it is, if it has no leaf, or as the leaf for it. -/
theorem nodes_seenInside (h : inner ∈ (node.seenInside next).nodes) :
    inner = node.asLeaf next ∨ inner ∈ node.nodes ∧ inner.isClosed = true := by
  unfold seenInside at h
  split at h
  · rename_i hclosed
    exact .inr ⟨h, isClosed_mono hclosed h⟩
  · exact .inl (List.mem_singleton.mp h)

/-- The nodes that a mapping brings into what stands inside it. -/
theorem entryNodes_outerEntries {entries : List (Node × Node)}
    (h : inner ∈ entryNodes (outerEntries next entries)) :
    ∃ node ∈ entryNodes entries, inner = node.asLeaf next ∨ inner = node ∧ inner.isClosed = true := by
  have hpart {part : Node} (hpart : inner ∈ (part.seenInside next).nodes) :
      ∃ node ∈ part.nodes, inner = node.asLeaf next ∨ inner = node ∧ inner.isClosed = true := by
    rcases nodes_seenInside hpart with hleaf | ⟨hinner, hclosed⟩
    · exact ⟨part, mem_nodes_self part, .inl hleaf⟩
    · exact ⟨inner, hinner, .inr ⟨rfl, hclosed⟩⟩
  induction entries with
  | nil => cases h
  | cons entry others ih =>
    obtain ⟨key, value⟩ := entry
    rw [outerEntries] at h
    rw [entryNodes]
    split at h
    · obtain ⟨node, hnode, hinner⟩ := ih h
      exact ⟨node, List.mem_append_right _ (List.mem_append_right _ hnode), hinner⟩
    · rw [entryNodes, List.mem_append, List.mem_append] at h
      rcases h with h | h | h
      · obtain ⟨node, hnode, hinner⟩ := hpart h
        exact ⟨node, List.mem_append_left _ hnode, hinner⟩
      · obtain ⟨node, hnode, hinner⟩ := hpart h
        exact ⟨node, List.mem_append_right _ (List.mem_append_left _ hnode), hinner⟩
      · obtain ⟨node, hnode, hinner⟩ := ih h
        exact ⟨node, List.mem_append_right _ (List.mem_append_right _ hnode), hinner⟩

theorem number_filled (next : NodeNumber) (root leaf : Node) : (root.filled next leaf).number = leaf.number := by
  unfold filled
  split
  · split
    · split <;> rfl
    · rfl
  · rfl

/-- The nodes of what comes in place of a leaf are this itself, and parts of mappings of the document. -/
theorem nodes_filled {leaf : Node} (h : inner ∈ (root.filled next leaf).nodes) (hleaf : leaf.target?.isSome) :
    inner = root.filled next leaf ∨
      ∃ node ∈ root.nodes, inner = node.asLeaf next ∨ inner = node ∧ inner.isClosed = true := by
  rw [nodes_eq] at h
  rcases List.mem_cons.mp h with h | h
  · exact .inl h
  refine .inr ?_
  unfold filled at h
  split at h
  · split at h
    · rename_i outer hfound
      split at h
      · rw [descendants_mapping] at h
        split at h
        · cases h
        · obtain ⟨node, hnode, hinner⟩ := entryNodes_outerEntries h
          have houter := List.mem_of_find?_eq_some hfound
          exact ⟨node, nodes_trans houter (List.mem_cons_of_mem _ hnode), hinner⟩
      · cases h
    · cases h
  · cases leaf with
    | enclosing number target tag kind mark => cases h
    | _ => cases hleaf

/-! ## Numbers -/

/-- The nodes of a document with outer mappings in place of leaves: what has become of those that were there, and
leaves for them. -/
theorem nodes_withOuter : ∀ inner ∈ (root.withOuter next).nodes,
    ∃ node ∈ root.nodes, inner = node.mapLeaves (root.filled next) ∨ inner = node.asLeaf next := by
  unfold withOuter
  split
  · rename_i hclosed
    exact fun inner hinner => ⟨inner, hinner, .inl (mapLeaves_of_isClosed (isClosed_mono hclosed hinner)).symm⟩
  · refine nodes_mapLeaves (fun old hold => ⟨old, hold, .inl rfl⟩) fun leaf hleaf htarget inner hinner => ?_
    rcases nodes_filled hinner htarget with rfl | ⟨node, hnode, hasLeaf | ⟨rfl, hclosed⟩⟩
    · refine ⟨leaf, hleaf, .inl ?_⟩
      cases leaf with
      | enclosing number target tag kind mark => rfl
      | _ => cases htarget
    · exact ⟨node, hnode, .inr hasLeaf⟩
    · exact ⟨inner, hnode, .inl (mapLeaves_of_isClosed hclosed).symm⟩

/-- Merging outer mappings keeps nodes with the same number the same. -/
theorem withOuter_isIdentified (hroot : root.IsIdentified) (hnext : ∀ node ∈ root.nodes, node.number < next) :
    (root.withOuter next).IsIdentified := by
  have hnumber := number_mapLeaves (number_filled next root)
  have hleaf (node : Node) : (node.asLeaf next).number = next + node.number := rfl
  intro inner hinner inner' hinner' hsame
  obtain ⟨node, hnode, rfl | rfl⟩ := nodes_withOuter inner hinner
  all_goals obtain ⟨node', hnode', rfl | rfl⟩ := nodes_withOuter inner' hinner'
  · rw [hnumber, hnumber] at hsame
    rw [hroot node hnode node' hnode' hsame]
  · rw [hnumber, hleaf] at hsame
    exact absurd (hnext node hnode) (Nat.not_lt.mpr (hsame ▸ Nat.le_add_right _ _))
  · rw [hnumber, hleaf] at hsame
    exact absurd (hnext node' hnode') (Nat.not_lt.mpr (hsame ▸ Nat.le_add_right _ _))
  · rw [hleaf, hleaf] at hsame
    rw [hroot node hnode node' hnode' (Nat.add_left_cancel hsame)]

end Node

/-- Nodes of a document that have the same number are the same. -/
theorem parseDocument_isIdentified {tokens : List Token} {root : Node}
    (h : parseDocument tokens = .ok (some root)) : root.IsIdentified := by
  unfold parseDocument at h
  cases hrun : NodeParser.parseOnly ⟨tokens, [], 0⟩ with
  | error e =>
    rw [hrun] at h
    cases h
  | ok result =>
    rw [hrun] at h
    obtain ⟨root?, s⟩ := result
    obtain ⟨read, rfl, rfl⟩ := Option.map_eq_some_iff.mp (Except.ok.inj h)
    obtain ⟨hidentified, hnext⟩ := NodeParser.parseOnly_isIdentified hrun
    exact Node.withOuter_isIdentified hidentified hnext

end ResolverWiring.Yaml
