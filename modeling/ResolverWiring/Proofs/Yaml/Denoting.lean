import Mathlib.Data.List.Perm.Basic
import ResolverWiring.Proofs.Yaml.Mapping
import ResolverWiring.Proofs.Yaml.Parsing
import ResolverWiring.Yaml.Value.OfNode

/-!
# `Proofs.Yaml.Denoting` — the value of a node by itself

A tree without aliases, merge marks and short tags denotes a value that does not depend on anything around it
(`Node.Denotes`). If its nodes have different numbers, its evaluation finds just this value (`ofNode_eq`).

The evaluation meets the nodes of a tree in an order of its own, since collections wait. The invariant is that the
nodes met, those below the collections that wait, and those that are still to be met are all nodes of the tree, each
one once (`Progress.Accounts`). The nodes of the waiting collections become fewer with each that is opened, which
bounds the rounds.
-/

namespace ResolverWiring.Yaml

/-! ## Values -/

namespace Node

mutual

/-- Whether a node denotes a value by itself: scalars have a type, and the keys of mappings are texts, all different. -/
def Denotes : Node → Value → Prop
  | .scalar number tag text mark, value =>
    ∃ core, tag = .core core ∧ core.isScalar = true ∧ scalarValue core number text mark = .ok value
  | .sequence _ tag items _, value => tag = .core .sequence ∧ ∃ values, value = .list values ∧ ItemsDenote items values
  | .mapping _ tag entries _, value => tag = .core .mapping
    ∧ ∃ values, value = .map values ∧ Value.DistinctKeys values ∧ EntriesDenote entries values
  | .enclosing _ _ _ _ _, _ => False

/-- Whether nodes denote values, in the same order. -/
def ItemsDenote : List Node → List Value → Prop
  | [], values => values = []
  | item :: others, values => ∃ value behind, values = value :: behind ∧ Denotes item value ∧ ItemsDenote others behind

/-- Whether pairs of nodes denote pairs of a text and a value, in the same order. -/
def EntriesDenote : List (Node × Node) → List (Value × Value) → Prop
  | [], values => values = []
  | (key, value) :: others, values => ∃ name denoted behind, values = (.string name, denoted) :: behind
    ∧ key.tag = .core .string ∧ Denotes key (.string name) ∧ Denotes value denoted ∧ EntriesDenote others behind

end

/-- The nodes right below a node. -/
def children : Node → List Node
  | .scalar _ _ _ _ => []
  | .sequence _ _ items _ => items
  | .mapping _ _ entries _ => entries.flatMap fun entry => [entry.1, entry.2]
  | .enclosing _ _ _ _ _ => []

/-- All nodes below a node. -/
def descendants (node : Node) : List Node := node.children.flatMap nodes

/-- The value of a scalar by itself. -/
def scalar? : Node → Option Value
  | .scalar number (.core core) text mark => (scalarValue core number text mark).toOption
  | _ => none

/-- What is noted of a node when it is met. -/
def record (node : Node) : NodeNumber × Option Value := (node.number, node.scalar?)

theorem ItemsDenote.forall {items : List Node} {values : List Value} (h : ItemsDenote items values) :
    ∀ item ∈ items, ∃ value, item.Denotes value := by
  induction items generalizing values with
  | nil => nofun
  | cons item others ih =>
    obtain ⟨value, behind, rfl, hitem, hothers⟩ := h
    exact List.forall_mem_cons.mpr ⟨⟨value, hitem⟩, ih hothers⟩

theorem Denotes.target?_eq {node : Node} {value : Value} (h : node.Denotes value) : node.target? = none := by
  cases node with
  | enclosing _ _ _ _ _ => exact h.elim
  | _ => rfl

/-- A node with the tag of a scalar is one. -/
theorem Denotes.scalar?_eq {node : Node} {value : Value} {core : CoreTag} (h : node.Denotes value)
    (htag : node.tag = .core core) (hscalar : core.isScalar = true) : node.scalar? = some value := by
  match node with
  | .scalar number _ text mark =>
    obtain ⟨core', rfl, -, hvalue⟩ := h
    rw [Node.scalar?, hvalue]
    rfl
  | .sequence _ _ _ _ =>
    obtain ⟨rfl, -⟩ := h
    cases htag
    cases hscalar
  | .mapping _ _ _ _ =>
    obtain ⟨rfl, -⟩ := h
    cases htag
    cases hscalar
  | .enclosing _ _ _ _ _ => exact h.elim

theorem itemNodes_eq (items : List Node) : itemNodes items = items.flatMap nodes := by
  induction items with
  | nil => rfl
  | cons item others ih => rw [itemNodes, ih, List.flatMap_cons]

theorem entryNodes_eq (entries : List (Node × Node)) :
    entryNodes entries = (entries.flatMap fun entry => [entry.1, entry.2]).flatMap nodes := by
  induction entries with
  | nil => rfl
  | cons entry others ih =>
    obtain ⟨key, value⟩ := entry
    rw [entryNodes, ih]
    simp

theorem nodes_eq (node : Node) : node.nodes = node :: node.descendants := by
  cases node with
  | scalar => rfl
  | sequence _ _ items _ => rw [nodes, itemNodes_eq]; rfl
  | mapping _ _ entries _ => rw [nodes, entryNodes_eq]; rfl
  | enclosing => rfl

theorem mem_nodes_self (node : Node) : node ∈ node.nodes := by
  rw [nodes_eq]
  exact List.mem_cons_self

mutual

theorem length_nodes : ∀ node : Node, node.nodes.length = node.weight
  | .scalar _ _ _ _ => rfl
  | .sequence _ _ items _ => by rw [nodes, weight, List.length_cons, length_itemNodes items, Nat.add_comm]
  | .mapping _ _ entries _ => by rw [nodes, weight, List.length_cons, length_entryNodes entries, Nat.add_comm]
  | .enclosing _ _ _ _ _ => rfl

theorem length_itemNodes : ∀ items : List Node, (itemNodes items).length = itemsWeight items
  | [] => rfl
  | item :: others => by
    rw [itemNodes, itemsWeight, List.length_append, length_nodes item, length_itemNodes others]

theorem length_entryNodes : ∀ entries : List (Node × Node), (entryNodes entries).length = entriesWeight entries
  | [] => rfl
  | (key, value) :: others => by
    rw [entryNodes, entriesWeight, List.length_append, List.length_append, length_nodes key, length_nodes value,
      length_entryNodes others, Nat.add_assoc]

end

theorem weight_child {node child : Node} (h : child ∈ node.children) : child.weight < node.weight := by
  obtain ⟨before, behind, hchildren⟩ := List.append_of_mem h
  rw [← length_nodes, ← length_nodes, node.nodes_eq, descendants, hchildren, List.flatMap_append, List.flatMap_cons]
  simp only [List.length_cons, List.length_append]
  omega

theorem nodes_subset_of_mem {node : Node} {nodes : List Node} (h : node ∈ nodes) :
    node.nodes ⊆ nodes.flatMap Node.nodes :=
  fun _ hinner => List.mem_flatMap.mpr ⟨node, h, hinner⟩

theorem descendants_subset (node : Node) : node.descendants ⊆ node.nodes := by
  rw [nodes_eq]
  exact List.subset_cons_self _ _

/-- A node below another one has its nodes below it. -/
theorem nodes_trans {node root : Node} (h : node ∈ root.nodes) : node.nodes ⊆ root.nodes := by
  rw [root.nodes_eq] at h
  rcases List.mem_cons.mp h with rfl | h
  · exact List.Subset.refl _
  · obtain ⟨child, hchild, hnode⟩ := List.mem_flatMap.mp h
    have hweight := weight_child hchild
    have hbelow : node.nodes ⊆ root.descendants := List.Subset.trans (nodes_trans hnode) (nodes_subset_of_mem hchild)
    exact List.Subset.trans hbelow root.descendants_subset
termination_by root.weight

/-! ## Merging nothing -/

variable {entries : List (Node × Node)} {values : List (Value × Value)} {mark : Mark}

/-- Without merge marks a mapping has its own entries. -/
theorem mergedEntries_of_denote (h : EntriesDenote entries values) : mergedEntries mark entries = .ok entries := by
  have hparts : ∀ (entries : List (Node × Node)) (values : List (Value × Value)), EntriesDenote entries values →
      broughtIn mark entries = .ok [] ∧ ownEntries entries = entries := by
    intro entries
    induction entries with
    | nil => exact fun _ _ => ⟨rfl, rfl⟩
    | cons entry others ih =>
      intro values h
      obtain ⟨key, value⟩ := entry
      obtain ⟨name, denoted, behind, rfl, htag, -, -, hothers⟩ := h
      have hmerge : key.tag ≠ .core .merge := by rw [htag]; decide
      obtain ⟨hbrought, hown⟩ := ih behind hothers
      rw [broughtIn, ownEntries, if_neg hmerge, if_neg hmerge, hbrought, hown]
      exact ⟨rfl, rfl⟩
  obtain ⟨hbrought, hown⟩ := hparts entries values h
  rw [mergedEntries, hbrought, hown]
  rfl

theorem sources_of_denote (h : EntriesDenote entries values) : sources entries = [] := by
  induction entries generalizing values with
  | nil => rfl
  | cons entry others ih =>
    obtain ⟨key, value⟩ := entry
    obtain ⟨name, denoted, behind, rfl, htag, -, -, hothers⟩ := h
    rw [sources, if_neg (by rw [htag]; decide), ih hothers]

end Node

/-! ## Meeting nodes -/

namespace Progress

/-- The progress when one more node has been met, which waits if it is a collection. -/
def seen (p : Progress) (node : Node) : Progress :=
  { p with met := node.record :: p.met, waiting := p.waiting ++ if node.kind = .scalar then [] else [node] }

/-- The number of nodes of the collections that wait. -/
def load (p : Progress) : Nat := (p.waiting.flatMap Node.nodes).length

/-- Whether the nodes met, those below the collections that wait, and those that are still to be met are all nodes,
each one once. -/
structure Accounts (p : Progress) (pending total : List Node) : Prop where
  records : (p.met ++ (p.waiting.flatMap Node.descendants ++ pending.flatMap Node.nodes).map Node.record).Perm
    (total.map Node.record)
  texts : p.texts = []
  waiting : ∀ node ∈ p.waiting, node.kind ≠ .scalar ∧ ∃ value, node.Denotes value

variable {p : Progress} {node : Node} {nodes pending total : List Node} {value : Value}

theorem Accounts.not_met (h : p.Accounts (node :: pending) total) (hnumbers : (total.map (·.number)).Nodup) :
    p.isMet node = false := by
  have hperm := h.records.map Prod.fst
  rw [List.map_append, List.map_map, List.map_map] at hperm
  have hnodup := hperm.nodup_iff.mpr hnumbers
  have hmem : node.number ∈ (p.waiting.flatMap Node.descendants ++ (node :: pending).flatMap Node.nodes).map
      (Prod.fst ∘ Node.record) := by
    refine List.mem_map.mpr ⟨node, List.mem_append_right _ ?_, rfl⟩
    rw [List.flatMap_cons]
    exact List.mem_append_left _ node.mem_nodes_self
  refine List.any_eq_false.mpr fun entry hentry heq => ?_
  have hdisjoint := List.disjoint_of_nodup_append hnodup
  refine hdisjoint (List.mem_map.mpr ⟨entry, hentry, ?_⟩) hmem
  exact eq_of_beq heq

theorem Accounts.seen (h : p.Accounts (node :: pending) total) (hdenotes : node.Denotes value) :
    (p.seen node).Accounts pending total := by
  refine ⟨?_, h.texts, ?_⟩
  · have hwaiting : (p.seen node).waiting.flatMap Node.descendants = p.waiting.flatMap Node.descendants ++ node.descendants := by
      unfold Progress.seen
      cases node with
      | enclosing _ _ _ _ _ => exact hdenotes.elim
      | _ => simp [Node.kind, Node.descendants, Node.children]
    refine List.Perm.trans ?_ h.records
    rw [hwaiting, List.flatMap_cons, node.nodes_eq]
    -- the node moves from those to be met to the front of those that are noted
    have hmiddle : (node.record :: (p.met ++ (p.waiting.flatMap Node.descendants).map Node.record
          ++ (node.descendants ++ pending.flatMap Node.nodes).map Node.record)).Perm
        (p.met ++ (p.waiting.flatMap Node.descendants).map Node.record
          ++ node.record :: (node.descendants ++ pending.flatMap Node.nodes).map Node.record) := List.perm_middle.symm
    simpa [Progress.seen] using hmiddle
  · intro other hother
    unfold Progress.seen at hother
    rcases List.mem_append.mp hother with hother | hother
    · exact h.waiting other hother
    · split at hother
      · cases hother
      · rename_i hkind
        rw [List.mem_singleton.mp hother]
        exact ⟨hkind, value, hdenotes⟩

theorem load_cons (met : List (NodeNumber × Option Value)) (node : Node) (waiting : List Node)
    (merged texts : List NodeNumber) : load ⟨met, node :: waiting, merged, texts⟩
      = node.descendants.length + 1 + load ⟨met, waiting, merged, texts⟩ := by
  rw [load, List.flatMap_cons, List.length_append, node.nodes_eq, List.length_cons]
  rfl

theorem load_seen (p : Progress) (node : Node) : (p.seen node).load ≤ p.load + node.nodes.length := by
  unfold load seen
  split <;> simp

theorem tagOf_eq (h : p.texts = []) (node : Node) : p.tagOf node = node.tag := by
  simp [tagOf, h]

/-- A collection that is opened: the nodes right below it are to be met. -/
theorem Accounts.opened {met : List (NodeNumber × Option Value)} {waiting : List Node} {merged texts : List NodeNumber}
    (h : Accounts ⟨met, node :: waiting, merged, texts⟩ pending total) :
    Accounts ⟨met, waiting, merged, texts⟩ (node.children ++ pending) total := by
  refine ⟨?_, h.texts, fun other hother => h.waiting other (List.mem_cons_of_mem _ hother)⟩
  refine List.Perm.trans ?_ h.records
  have hrotate : (waiting.flatMap Node.descendants ++ (node.descendants ++ pending.flatMap Node.nodes)).Perm
      (node.descendants ++ (waiting.flatMap Node.descendants ++ pending.flatMap Node.nodes)) := by
    rw [← List.append_assoc, ← List.append_assoc]
    exact List.perm_append_comm.append_right _
  rw [List.flatMap_append, ← Node.descendants, List.flatMap_cons, List.append_assoc]
  exact (hrotate.map _).append_left _

end Progress

namespace Evaluation

variable {p : Progress} {node : Node} {nodes pending total : List Node} {value : Value} {bound : Nat} {core : CoreTag}

theorem visit_core (hmet : p.isMet node = false) (htarget : node.target? = none) (htag : p.tagOf node = .core core) :
    visit (bound + 1) false node p = (if core.isScalar then (do
      let value ← ofExcept (scalarOf p core node)
      modify (·.meet node (some value)))
    else if core.isCollection then modify fun p => { p.meet node none with waiting := p.waiting ++ [node] }
    else unknown node) p := by
  show (if p.isMet node = true then (pure () : Evaluation Unit) else _) p = _
  rw [hmet, if_neg Bool.false_ne_true, htarget]
  show visitContent (visit bound) false p node p = _
  rw [visitContent, htag]
  rfl

theorem visit_collection (hmet : p.isMet node = false) (htarget : node.target? = none)
    (htag : p.tagOf node = .core core) (hscalar : core.isScalar = false) (hcollection : core.isCollection = true) :
    visit (bound + 1) false node p = .ok ((), { p.meet node none with waiting := p.waiting ++ [node] }) := by
  rw [visit_core hmet htarget htag, hscalar, if_neg Bool.false_ne_true, if_pos hcollection]
  rfl

/-- A node that denotes a value is met. -/
theorem visit_eq (hdenotes : node.Denotes value) (hmet : p.isMet node = false) (htexts : p.texts = []) :
    visit (bound + 1) false node p = .ok ((), p.seen node) := by
  have htag := Progress.tagOf_eq htexts node
  match node with
  | .scalar number tag text mark =>
    obtain ⟨core, rfl, hscalar, hvalue⟩ := hdenotes
    have hof : scalarOf p core (.scalar number (.core core) text mark) = .ok value := by
      rw [← hvalue]
      show (if (decide (core = .timestamp) && decide (NodeKind.scalar = .mapping)) = true then _ else _) = _
      rw [if_neg (by simp)]
      rfl
    have hrecord : (Node.scalar number (.core core) text mark).scalar? = some value :=
      Node.Denotes.scalar?_eq ⟨core, rfl, hscalar, hvalue⟩ rfl hscalar
    rw [visit_core hmet rfl htag, if_pos hscalar]
    show (scalarOf p core _).map (·, p) >>= _ = _
    rw [hof, Progress.seen, Node.record, hrecord]
    show Except.ok ((), p.meet _ (some value)) = _
    simp [Progress.meet, Node.kind]
  | .sequence number tag items mark =>
    obtain ⟨rfl, -⟩ := hdenotes
    exact visit_collection hmet rfl htag rfl rfl
  | .mapping number tag entries mark =>
    obtain ⟨rfl, -⟩ := hdenotes
    exact visit_collection hmet rfl htag rfl rfl
  | .enclosing _ _ _ _ _ => exact hdenotes.elim

/-! ## Collections -/

/-- Whether a step meets the nodes that are to be met first, and no others. -/
def Meets (step : Evaluation Unit) (p : Progress) (nodes pending total : List Node) : Prop :=
  ∃ p', step p = .ok ((), p') ∧ p'.Accounts pending total ∧ p'.load ≤ p.load + (nodes.flatMap Node.nodes).length

theorem meets_nodes (hnumbers : (total.map (·.number)).Nodup) (hdenotes : ∀ node ∈ nodes, ∃ value, node.Denotes value)
    (h : p.Accounts (nodes ++ pending) total) : Meets (nodes.forM (visit (bound + 1) false)) p nodes pending total := by
  induction nodes generalizing p with
  | nil => exact ⟨p, rfl, h, Nat.le_refl _⟩
  | cons node others ih =>
    obtain ⟨⟨value, hnode⟩, hothers⟩ := List.forall_mem_cons.mp hdenotes
    have hseen : visit (bound + 1) false node p = .ok ((), p.seen node) := visit_eq hnode (h.not_met hnumbers) h.texts
    obtain ⟨p', hrun, haccounts, hload⟩ := ih hothers (h.seen hnode)
    refine ⟨p', ?_, haccounts, ?_⟩
    · show (visit (bound + 1) false node p >>= fun r => others.forM (visit (bound + 1) false) r.2) = _
      rw [hseen]
      exact hrun
    · have := p.load_seen node
      rw [List.flatMap_cons, List.length_append]
      omega

/-- The parts of an entry are met; its key is a text. -/
theorem visitEntry_eq {key value : Node} {name : String} {denoted : Value} {mark : Mark}
    (hnumbers : (total.map (·.number)).Nodup) (htag : key.tag = .core .string) (hkey : key.Denotes (.string name))
    (hvalue : value.Denotes denoted) (h : p.Accounts (key :: value :: pending) total) :
    visitEntry (visit (bound + 1) false) mark (key, value) p = .ok ((), (p.seen key).seen value) := by
  have hkeySeen : visit (bound + 1) false key p = .ok ((), p.seen key) := visit_eq hkey (h.not_met hnumbers) h.texts
  have haccounts := h.seen hkey
  have hvalueSeen : visit (bound + 1) false value (p.seen key) = .ok ((), (p.seen key).seen value) :=
    visit_eq hvalue (haccounts.not_met hnumbers) haccounts.texts
  have hfound : ((p.seen key).value? key).isNone = false := by
    simp [Progress.seen, Progress.value?, Node.record, hkey.scalar?_eq htag rfl]
  show (visit (bound + 1) false key p >>= fun r => _) = _
  rw [hkeySeen]
  show (if ((p.seen key).value? key).isNone = true then _ else _ : Evaluation Unit) (p.seen key) = _
  rw [hfound, if_neg Bool.false_ne_true]
  exact hvalueSeen

theorem meets_entries {entries : List (Node × Node)} {values : List (Value × Value)} {mark : Mark}
    (hnumbers : (total.map (·.number)).Nodup) (hdenote : Node.EntriesDenote entries values)
    (h : p.Accounts ((entries.flatMap fun entry => [entry.1, entry.2]) ++ pending) total) :
    Meets (entries.forM (visitEntry (visit (bound + 1) false) mark)) p (entries.flatMap fun entry => [entry.1, entry.2])
      pending total := by
  induction entries generalizing p values with
  | nil => exact ⟨p, rfl, h, Nat.le_refl _⟩
  | cons entry others ih =>
    obtain ⟨key, value⟩ := entry
    obtain ⟨name, denoted, behind, rfl, htag, hkey, hvalue, hothers⟩ := hdenote
    -- the key is met before the value, as it is in the nodes to be met
    have haccounts : ((p.seen key).seen value).Accounts _ total := (h.seen hkey).seen hvalue
    obtain ⟨p', hrun, haccounts', hload⟩ := ih hothers haccounts
    refine ⟨p', ?_, haccounts', ?_⟩
    · show (visitEntry (visit (bound + 1) false) mark (key, value) p >>= fun r =>
        others.forM (visitEntry (visit (bound + 1) false) mark) r.2) = _
      rw [visitEntry_eq hnumbers htag hkey hvalue h]
      exact hrun
    · have := p.load_seen key
      have := (p.seen key).load_seen value
      simp only [List.flatMap_cons, List.cons_append, List.nil_append, List.length_append]
      omega

/-- Merging nothing into a mapping turns no mark for a value into a text. -/
theorem merge_texts {number : NodeNumber} {tag : Tag} {entries : List (Node × Node)} {values : List (Value × Value)}
    {mark : Mark} (hdenote : Node.EntriesDenote entries values) :
    (p.merge (.mapping number tag entries mark)).texts = p.texts := by
  -- only keys that are marks for a value turn into texts, and all keys are texts already
  have hmarks : (entries.map (·.1)).filter (·.tag = .core .value) = [] := by
    induction entries generalizing values with
    | nil => rfl
    | cons entry others ih =>
      obtain ⟨key, value⟩ := entry
      obtain ⟨name, denoted, behind, rfl, htag, -, -, hothers⟩ := hdenote
      rw [List.map_cons, List.filter_cons_of_neg (by simp [htag]), ih hothers]
  simp [Progress.merge, Node.entries, Node.sources_of_denote hdenote, hmarks]

/-- A collection that is opened has its parts met. -/
theorem meets_children (hnumbers : (total.map (·.number)).Nodup) (hkind : node.kind ≠ .scalar)
    (hdenotes : node.Denotes value) (h : p.Accounts (node.children ++ pending) total) :
    Meets (openCollection (visit (bound + 1) false) node) p node.children pending total := by
  cases node with
  | scalar _ _ _ _ => exact absurd rfl hkind
  | sequence _ _ items _ =>
    obtain ⟨rfl, values, rfl, hitems⟩ := hdenotes
    exact meets_nodes hnumbers hitems.forall h
  | mapping number _ entries mark =>
    obtain ⟨rfl, values, rfl, -, hentries⟩ := hdenotes
    have hmerge : (p.merge (.mapping number (.core .mapping) entries mark)).Accounts
        ((entries.flatMap fun entry => [entry.1, entry.2]) ++ pending) total :=
      ⟨h.records, by rw [merge_texts hentries, h.texts], h.waiting⟩
    have hmeets : Meets (entries.forM (visitEntry (visit (bound + 1) false) mark))
        (p.merge (.mapping number (.core .mapping) entries mark)) (entries.flatMap fun entry => [entry.1, entry.2])
        pending total := meets_entries hnumbers hentries hmerge
    obtain ⟨p', hrun, haccounts, hload⟩ := hmeets
    refine ⟨p', ?_, haccounts, hload⟩
    show visitEntries (visit (bound + 1) false) (.mapping number (.core .mapping) entries mark) p = _
    simp only [visitEntries, Node.mark, Node.entries, Node.mergedEntries_of_denote hentries]
    exact hrun
  | enclosing _ _ _ _ _ => exact hdenotes.elim

/-- As many rounds as the waiting collections have nodes meet all nodes. -/
theorem openWaiting_eq (hnumbers : (total.map (·.number)).Nodup) {count : Nat} (h : p.Accounts [] total)
    (hload : p.load ≤ count) :
    ∃ p', openWaiting (bound + 1) count p = .ok ((), p') ∧ p'.met.Perm (total.map Node.record) := by
  -- each round meets the nodes right below one collection, so the load gets less
  induction count generalizing p with
  | zero =>
    obtain ⟨met, waiting, merged, texts⟩ := p
    cases waiting with
    | nil => exact ⟨_, rfl, by simpa using h.records⟩
    | cons node others =>
      rw [Progress.load_cons] at hload
      omega
  | succ count ih =>
    obtain ⟨met, waiting, merged, texts⟩ := p
    cases waiting with
    | nil => exact ⟨_, rfl, by simpa using h.records⟩
    | cons node others =>
      obtain ⟨hkind, value, hdenotes⟩ := h.waiting node List.mem_cons_self
      have hmeets : Meets (openCollection (visit (bound + 1) false) node) ⟨met, others, merged, texts⟩ node.children []
          total := meets_children hnumbers hkind hdenotes h.opened
      obtain ⟨p', hrun, haccounts, hload'⟩ := hmeets
      rw [Progress.load_cons] at hload
      rw [← Node.descendants] at hload'
      obtain ⟨p'', hrun', hperm⟩ := ih haccounts (by omega)
      refine ⟨p'', ?_, hperm⟩
      show (openCollection (visit (bound + 1) false) node ⟨met, others, merged, texts⟩ >>= fun r =>
        openWaiting (bound + 1) count r.2) = _
      rw [hrun]
      exact hrun'

end Evaluation

/-- The evaluation of a tree whose nodes have different numbers notes the value of each scalar. -/
theorem evaluate_eq {root : Node} {value : Value} (hdenotes : root.Denotes value)
    (hnumbers : (root.nodes.map (·.number)).Nodup) :
    ∃ p, evaluate root = .ok p ∧ p.met.Perm (root.nodes.map Node.record) := by
  obtain ⟨bound, hbound⟩ := Nat.exists_eq_add_one_of_ne_zero (Nat.ne_of_gt root.weight_pos)
  have hstart : Progress.start.Accounts [root] root.nodes :=
    ⟨by simp [Progress.start], rfl, nofun⟩
  have hseen : Evaluation.visit (bound + 1) false root .start = .ok ((), Progress.start.seen root) :=
    Evaluation.visit_eq hdenotes (hstart.not_met hnumbers) hstart.texts
  have hload : (Progress.start.seen root).load ≤ root.weight := by
    have hload := Progress.start.load_seen root
    rw [root.length_nodes] at hload
    exact hload.trans (Nat.le_of_eq (Nat.zero_add _))
  have hwaiting : ∃ p, Evaluation.openWaiting (bound + 1) root.weight (Progress.start.seen root) = .ok ((), p)
      ∧ p.met.Perm (root.nodes.map Node.record) := Evaluation.openWaiting_eq hnumbers (hstart.seen hdenotes) hload
  obtain ⟨p, hrun, hperm⟩ := hwaiting
  refine ⟨p, ?_, hperm⟩
  rw [← hbound] at hseen hrun
  show (Evaluation.visit root.weight false root .start >>= fun r =>
    Evaluation.openWaiting root.weight root.weight r.2 >>= fun r => .ok r.2) = _
  rw [hseen]
  show (Evaluation.openWaiting root.weight root.weight (Progress.start.seen root) >>= fun r => .ok r.2) = _
  rw [hrun]
  rfl

/-- What is noted of a node is found again. -/
theorem Progress.value?_eq {p : Progress} {node : Node} {nodes : List Node} (hperm : p.met.Perm (nodes.map Node.record))
    (hnumbers : (nodes.map (·.number)).Nodup) (hmem : node ∈ nodes) : p.value? node = node.scalar? := by
  have hrecord : node.record ∈ p.met := hperm.mem_iff.mpr (List.mem_map_of_mem hmem)
  have hnodup : (p.met.map Prod.fst).Nodup := by
    rw [(hperm.map Prod.fst).nodup_iff, List.map_map]
    exact hnumbers
  obtain ⟨before, behind, hmet⟩ := List.append_of_mem hrecord
  have hlookup : p.met.lookup node.number = some node.scalar? := by
    refine List.lookup_eq_some_iff.mpr ⟨before, behind, hmet, fun other hother => ?_⟩
    rw [hmet, List.map_append, List.map_cons] at hnodup
    have hdisjoint := List.disjoint_of_nodup_append hnodup
    refine bne_iff_ne.mpr fun heq => ?_
    exact hdisjoint (List.mem_map_of_mem hother) (heq ▸ List.mem_cons_self)
  rw [Progress.value?, hlookup]
  rfl

/-! ## Putting together -/

namespace Value

theorem items_eq {f : Node → Value} {items : List Node} {values : List Value} (h : Node.ItemsDenote items values)
    (hf : ∀ item ∈ items, ∀ value, item.Denotes value → f item = value) : items.map f = values := by
  induction items generalizing values with
  | nil => exact h.symm
  | cons item others ih =>
    obtain ⟨value, behind, rfl, hitem, hothers⟩ := h
    obtain ⟨hfirst, hrest⟩ := List.forall_mem_cons.mp hf
    rw [List.map_cons, hfirst value hitem, ih hothers hrest]

theorem entries_eq {f : Node → Value} {entries : List (Node × Node)} {values : List (Value × Value)}
    (h : Node.EntriesDenote entries values)
    (hf : ∀ entry ∈ entries, ∀ node ∈ [entry.1, entry.2], ∀ value, node.Denotes value → f node = value) :
    (entries.map fun entry => (f entry.1, f entry.2)) = values := by
  induction entries generalizing values with
  | nil => exact h.symm
  | cons entry others ih =>
    obtain ⟨key, value⟩ := entry
    obtain ⟨name, denoted, behind, rfl, -, hkey, hvalue, hothers⟩ := h
    obtain ⟨hfirst, hrest⟩ := List.forall_mem_cons.mp hf
    rw [List.map_cons, hfirst key List.mem_cons_self _ hkey,
      hfirst value (List.mem_cons_of_mem _ List.mem_cons_self) _ hvalue, ih hothers hrest]

/-- Once the values of the scalars are known, the collections are put together as what they denote. -/
theorem assemble_eq {root node : Node} {p : Progress} {bound : Nat} {value : Value} (hdenotes : node.Denotes value)
    (hknown : ∀ other ∈ node.nodes, p.value? other = other.scalar?) (hbound : node.weight ≤ bound) :
    assemble root p bound node = value := by
  induction bound generalizing node value with
  | zero => exact absurd hbound (Nat.not_le_of_gt node.weight_pos)
  | succ bound ih =>
    -- the induction is on the bound: a child weighs less than its node
    have hchild : ∀ child ∈ node.children, ∀ value, child.Denotes value → assemble root p bound child = value := by
      intro child hchild value hdenotes
      refine ih hdenotes (fun other hother => hknown other ?_) ?_
      · rw [node.nodes_eq]
        exact List.mem_cons_of_mem _ (List.mem_flatMap.mpr ⟨child, hchild, hother⟩)
      · have := Node.weight_child hchild
        omega
    rw [assemble, hdenotes.target?_eq, hknown node node.mem_nodes_self]
    match node with
    | .scalar number _ text mark =>
      obtain ⟨core, rfl, hscalar, hvalue⟩ := hdenotes
      have hrecord : (Node.scalar number (.core core) text mark).scalar? = some value :=
        Node.Denotes.scalar?_eq ⟨core, rfl, hscalar, hvalue⟩ rfl hscalar
      rw [hrecord]
      rfl
    | .sequence number _ items mark =>
      obtain ⟨rfl, values, rfl, hitems⟩ := hdenotes
      show list (items.map (assemble root p bound)) = _
      rw [items_eq hitems hchild]
    | .mapping number _ entries mark =>
      obtain ⟨rfl, values, rfl, hdistinct, hentries⟩ := hdenotes
      have hvalues : mergedValues (assemble root p bound) (.mapping number (.core .mapping) entries mark) = values := by
        rw [mergedValues, Node.entries, Node.mergedEntries_of_denote hentries]
        exact entries_eq hentries fun entry hentry node hnode =>
          hchild node (List.mem_flatMap.mpr ⟨entry, hentry, hnode⟩)
      show map (ofEntries (mergedValues _ _)) = _
      rw [hvalues, ofEntries_of_distinct hdistinct]
    | .enclosing _ _ _ _ _ => exact hdenotes.elim

/-- A tree whose nodes have different numbers, and which denotes a value by itself, is loaded as this value. -/
theorem ofNode_eq {node : Node} {value : Value} (hdenotes : node.Denotes value)
    (hnumbers : (node.nodes.map (·.number)).Nodup) : ofNode node = .ok value := by
  obtain ⟨p, hevaluate, hperm⟩ := evaluate_eq hdenotes hnumbers
  rw [ofNode, ofNodeIn, hevaluate]
  show Except.ok (assemble node p node.weight node) = _
  rw [assemble_eq hdenotes (fun other hother => Progress.value?_eq hperm hnumbers hother) (Nat.le_refl _)]

end Value

end ResolverWiring.Yaml
