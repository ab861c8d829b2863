import ResolverWiring.Proofs.Yaml.Outer

/-!
# `Proofs.Yaml.Evaluated` — what has been met in the end

A node leads to its parts: the items of a sequence, and the keys and values of a mapping after merging
(`Node.parts`). Once a document is evaluated, every node that can be reached from the root through sequences,
mappings and nodes with short tags has been met, and what is noted of it is the value that it has by itself
(`evaluate_reached`).

The evaluation meets nodes in an order of its own, and what stands below a short tag is opened at once. The invariant
of a step (`Progress.Advances`) is that each node that it meets waits or has all its parts met by the end of the step.
No node waits twice, so there are enough rounds for all of them (`Progress.room`). An alias inside the collection that
it names has no parts, so it is met like a scalar, and noted with no value.
-/

namespace ResolverWiring.Yaml

/-! ## Parts -/

namespace Node

/-- The nodes that a node leads to: its items, or the keys and values of its entries after merging. -/
def parts : Node → Except Fault (List Node)
  | scalar _ _ _ _ => .ok []
  | sequence _ _ items _ => .ok items
  | mapping _ _ entries mark => (mergedEntries mark entries).map (·.flatMap fun entry => [entry.1, entry.2])
  | enclosing _ _ _ _ _ => .ok []

/-- The parts of a mapping are known if its merge marks bring in entries. -/
theorem parts_mapping_eq_ok {number : NodeNumber} {tag : Tag} {entries : List (Node × Node)} {mark : Mark}
    {parts : List Node} (h : (mapping number tag entries mark).parts = .ok parts) :
    ∃ merged, mergedEntries mark entries = .ok merged ∧ parts = merged.flatMap fun entry => [entry.1, entry.2] := by
  rw [Node.parts] at h
  cases hmerged : mergedEntries mark entries with
  | error e =>
    rw [hmerged] at h
    cases h
  | ok merged =>
    rw [hmerged] at h
    cases h
    exact ⟨merged, rfl, rfl⟩

/-- A node below a node of a tree is one of the tree. -/
theorem descendant_mem {inner node root : Node} (hnode : node ∈ root.nodes) (hinner : inner ∈ node.descendants) :
    inner ∈ root.nodes := nodes_trans hnode (node.descendants_subset hinner)

theorem weight_le_of_mem {node root : Node} (h : node ∈ root.nodes) : node.weight ≤ root.weight := by
  rw [root.nodes_eq] at h
  rcases List.mem_cons.mp h with rfl | h
  · exact Nat.le_refl _
  · obtain ⟨child, hchild, hnode⟩ := List.mem_flatMap.mp h
    have hweight := weight_child hchild
    exact (weight_le_of_mem hnode).trans hweight.le
termination_by root.weight

theorem weight_descendant {inner node : Node} (h : inner ∈ node.descendants) : inner.weight < node.weight := by
  obtain ⟨child, hchild, hinner⟩ := List.mem_flatMap.mp h
  exact (weight_le_of_mem hinner).trans_lt (weight_child hchild)

/-- The nodes of an entry. -/
def entryParts (entry : Node × Node) : List Node := entry.1.nodes ++ entry.2.nodes

theorem ownEntries_nodes {entry : Node × Node} {entries : List (Node × Node)} (h : entry ∈ ownEntries entries) :
    entryParts entry ⊆ entryNodes entries := by
  induction entries with
  | nil => cases h
  | cons head others ih =>
    obtain ⟨key, value⟩ := head
    rw [ownEntries] at h
    rw [entryNodes, ← List.append_assoc]
    split at h
    · exact List.subset_append_of_subset_right _ (ih h)
    · rcases List.mem_cons.mp h with rfl | h
      · exact List.subset_append_left _ _
      · exact List.subset_append_of_subset_right _ (ih h)

mutual

theorem broughtIn_nodes {mark : Mark} {entry : Node × Node} {brought : List (Node × Node)} (hentry : entry ∈ brought) :
    ∀ entries : List (Node × Node), broughtIn mark entries = .ok brought → entryParts entry ⊆ entryNodes entries
  | [], h => by
    cases h
    cases hentry
  | (key, value) :: others, h => by
    rw [broughtIn] at h
    rw [entryNodes]
    split at h
    · obtain ⟨first, hfirst, h⟩ := result_bind_eq_ok h
      obtain ⟨rest, hrest, h⟩ := result_bind_eq_ok h
      cases h
      rcases List.mem_append.mp hentry with hmem | hmem
      · have hvalue := broughtBy_nodes hmem value hfirst
        exact List.subset_append_of_subset_right _ (List.subset_append_of_subset_left _ hvalue)
      · have hothers := broughtIn_nodes hmem others hrest
        exact List.subset_append_of_subset_right _ (List.subset_append_of_subset_right _ hothers)
    · have hothers := broughtIn_nodes hentry others h
      exact List.subset_append_of_subset_right _ (List.subset_append_of_subset_right _ hothers)

theorem broughtBy_nodes {mark : Mark} {entry : Node × Node} {brought : List (Node × Node)} (hentry : entry ∈ brought) :
    ∀ node : Node, broughtBy mark node = .ok brought → entryParts entry ⊆ node.nodes
  | mapping _ _ entries start, h => by
    rw [broughtBy] at h
    rw [nodes]
    obtain ⟨first, hfirst, h⟩ := result_bind_eq_ok h
    cases h
    rcases List.mem_append.mp hentry with hmem | hmem
    · exact List.subset_cons_of_subset _ (broughtIn_nodes hmem entries hfirst)
    · exact List.subset_cons_of_subset _ (ownEntries_nodes hmem)
  | sequence _ _ items _, h => by
    rw [broughtBy] at h
    rw [nodes]
    exact List.subset_cons_of_subset _ (broughtByAll_nodes hentry items h)
  | scalar _ _ _ _, h => by
    rw [broughtBy] at h
    cases h
  | enclosing _ _ _ _ _, h => by
    rw [broughtBy] at h
    cases h

theorem broughtByAll_nodes {mark : Mark} {entry : Node × Node} {brought : List (Node × Node)}
    (hentry : entry ∈ brought) :
    ∀ items : List Node, broughtByAll mark items = .ok brought → entryParts entry ⊆ itemNodes items
  | [], h => by
    cases h
    cases hentry
  | mapping _ _ entries start :: others, h => by
    rw [broughtByAll] at h
    rw [itemNodes, nodes]
    obtain ⟨first, hfirst, h⟩ := result_bind_eq_ok h
    obtain ⟨rest, hrest, h⟩ := result_bind_eq_ok h
    cases h
    rcases List.mem_append.mp hentry with hmem | hmem
    · exact List.subset_append_of_subset_right _ (broughtByAll_nodes hmem others hrest)
    · refine List.subset_append_of_subset_left _ (List.subset_cons_of_subset _ ?_)
      rcases List.mem_append.mp hmem with hmem | hmem
      · exact broughtIn_nodes hmem entries hfirst
      · exact ownEntries_nodes hmem
  | enclosing _ _ _ _ _ :: _, h => by
    rw [broughtByAll] at h
    cases h
  | scalar _ _ _ _ :: _, h => by
    rw [broughtByAll] at h
    · cases h
    · nofun
    · nofun
  | sequence _ _ _ _ :: _, h => by
    rw [broughtByAll] at h
    · cases h
    · nofun
    · nofun

end

theorem mergedEntries_nodes {mark : Mark} {entries merged : List (Node × Node)}
    (h : mergedEntries mark entries = .ok merged) {entry : Node × Node} (hentry : entry ∈ merged) :
    entryParts entry ⊆ entryNodes entries := by
  obtain ⟨brought, hbrought, h⟩ := result_bind_eq_ok h
  cases h
  rcases List.mem_append.mp hentry with hmem | hmem
  · exact broughtIn_nodes hmem entries hbrought
  · exact ownEntries_nodes hmem

theorem entry_nodes {entry : Node × Node} {entries : List (Node × Node)} (h : entry ∈ entries) :
    entryParts entry ⊆ entryNodes entries := by
  rw [entryNodes_eq, List.flatMap_assoc]
  intro node hnode
  refine List.mem_flatMap.mpr ⟨entry, h, ?_⟩
  rwa [List.flatMap_cons, List.flatMap_singleton]

/-- The key and the value of an entry of a mapping, merged or not, are nodes below it. -/
theorem entry_mem {node : Node} {entry : Node × Node} (h : entryParts entry ⊆ entryNodes node.entries) :
    entry.1 ∈ node.descendants ∧ entry.2 ∈ node.descendants := by
  have hsubset : entryNodes node.entries ⊆ node.descendants := by
    cases node with
    | mapping number tag entries mark =>
      rw [descendants_mapping]
      exact List.Subset.refl _
    | _ => exact List.nil_subset _
  have hparts := List.append_subset.mp h
  exact ⟨hsubset (hparts.1 entry.1.mem_nodes_self), hsubset (hparts.2 entry.2.mem_nodes_self)⟩

theorem item_nodes {node item : Node} (h : item ∈ node.items) : item.nodes ⊆ node.descendants := by
  cases node with
  | sequence _ _ _ _ => exact nodes_subset_of_mem h
  | _ => cases h

theorem item_mem {node item : Node} (h : item ∈ node.items) : item ∈ node.descendants :=
  item_nodes h item.mem_nodes_self

theorem parts_mem {node part : Node} {parts : List Node} (h : node.parts = .ok parts) (hpart : part ∈ parts) :
    part ∈ node.descendants := by
  cases node with
  | scalar _ _ _ _ =>
    cases h
    cases hpart
  | sequence _ _ items _ =>
    cases h
    exact item_mem hpart
  | mapping number tag entries mark =>
    obtain ⟨merged, hmerged, rfl⟩ := parts_mapping_eq_ok h
    obtain ⟨entry, hentry, hpart⟩ := List.mem_flatMap.mp hpart
    have hmem : entry.1 ∈ (mapping number tag entries mark).descendants ∧
        entry.2 ∈ (mapping number tag entries mark).descendants := entry_mem (mergedEntries_nodes hmerged hentry)
    rcases List.mem_cons.mp hpart with rfl | hpart
    · exact hmem.1
    · rw [List.mem_singleton.mp hpart]
      exact hmem.2
  | enclosing _ _ _ _ _ =>
    cases h
    cases hpart

/-- Whether a node is a sequence, a mapping, or has a short tag: what is loaded of it is made of its parts. -/
def IsOpen (node : Node) : Prop :=
  (∃ name, node.tag = .short name) ∨ node.tag = .core .sequence ∨ node.tag = .core .mapping

theorem not_isOpen {node : Node} {core : CoreTag} (htag : node.tag = .core core) (hsequence : core ≠ .sequence)
    (hmapping : core ≠ .mapping) : ¬ node.IsOpen := by
  rintro (⟨name, h⟩ | h | h)
  · cases htag.symm.trans h
  · exact hsequence (Tag.core.inj (htag.symm.trans h))
  · exact hmapping (Tag.core.inj (htag.symm.trans h))

/-- Whether a value, or none, is what a node is noted with: a scalar has the value that it has by itself. -/
structure IsNoted (node : Node) (value? : Option Value) : Prop where
  short : ∀ name, node.tag = .short name → value? = none
  collection : ∀ core, node.tag = .core core → core.isCollection = true → value? = none
  scalar : ∀ number core text mark, node = .scalar number (.core core) text mark → core.isCollection = false →
    ∃ value, value? = some value ∧ scalarValue core number text mark = .ok value

/-- A node that is no scalar is noted with no value. -/
theorem isNoted_none {node : Node} (h : ∀ number core text mark, core.isCollection = false →
    node ≠ .scalar number (.core core) text mark) : node.IsNoted none where
  short := fun _ _ => rfl
  collection := fun _ _ _ => rfl
  scalar := fun number core text mark hnode hcore => absurd hnode (h number core text mark hcore)

/-- What has a value noted is not made of its parts. -/
theorem IsNoted.not_isOpen {node : Node} {value : Value} (h : node.IsNoted (some value)) : ¬ node.IsOpen := by
  rintro (⟨name, htag⟩ | htag | htag)
  · cases h.short name htag
  · cases h.collection _ htag rfl
  · cases h.collection _ htag rfl

end Node

/-! ## Steps -/

namespace Progress

/-- Whether what is noted is right for the nodes of a document, and what waits is among them. -/
structure IsSound (root : Node) (p : Progress) : Prop where
  noted : ∀ entry ∈ p.met, ∀ node ∈ root.nodes, node.number = entry.1 → node.IsNoted entry.2
  waiting : ∀ node ∈ p.waiting, node ∈ root.nodes

/-- Whether the parts of a node are known and have been met. -/
def HasParts (p : Progress) (node : Node) : Prop :=
  ∃ parts, node.parts = .ok parts ∧ ∀ part ∈ parts, p.isMet part = true

/-- The number of nodes that have not been met, each counted wherever it occurs. -/
def unmet (root : Node) (p : Progress) : Nat := root.nodes.countP fun node => !p.isMet node

/-- A bound on the collections that can still be opened: they wait, or have not been met. -/
def room (root : Node) (p : Progress) : Nat := p.unmet root + p.waiting.length

/-- Whether the progress after a step goes on from that before: a node that is met by the step waits, or has all its
parts met. -/
structure Advances (root : Node) (p p' : Progress) : Prop where
  met : ∀ node, p.isMet node = true → p'.isMet node = true
  waiting : p.waiting ⊆ p'.waiting
  step : ∀ node ∈ root.nodes, p'.isMet node = true →
    p.isMet node = true ∨ node ∈ p'.waiting ∨ (node.IsOpen → p'.HasParts node)
  room : p'.room root ≤ p.room root

/-- Whether every node that has been met waits, or has all its parts met. -/
def IsSettled (root : Node) (p : Progress) : Prop :=
  ∀ node ∈ root.nodes, p.isMet node = true → node ∈ p.waiting ∨ (node.IsOpen → p.HasParts node)

variable {root node : Node} {p p' p'' : Progress} {value? : Option Value}

theorem HasParts.mono (h : p.HasParts node) (hmet : ∀ node, p.isMet node = true → p'.isMet node = true) :
    p'.HasParts node := by
  obtain ⟨parts, hparts, hall⟩ := h
  exact ⟨parts, hparts, fun part hpart => hmet part (hall part hpart)⟩

theorem Advances.refl (root : Node) (p : Progress) : Advances root p p :=
  ⟨fun _ h => h, List.Subset.refl _, fun _ _ h => .inl h, Nat.le_refl _⟩

theorem Advances.trans (h : Advances root p p') (h' : Advances root p' p'') : Advances root p p'' where
  met := fun node hmet => h'.met node (h.met node hmet)
  waiting := List.Subset.trans h.waiting h'.waiting
  step := by
    intro node hnode hmet
    rcases h'.step node hnode hmet with hmet | hnow
    · rcases h.step node hnode hmet with hmet | hwaiting | hparts
      · exact .inl hmet
      · exact .inr (.inl (h'.waiting hwaiting))
      · exact .inr (.inr fun hopen => (hparts hopen).mono h'.met)
    · exact .inr hnow
  room := Nat.le_trans h'.room h.room

/-- When nothing waits any more, the nodes met have all their parts met. -/
theorem IsSettled.parts (h : p.IsSettled root) (hwaiting : p.waiting = []) :
    ∀ node ∈ root.nodes, p.isMet node = true → node.IsOpen → p.HasParts node := by
  intro node hnode hmet
  rcases h node hnode hmet with hwaits | hparts
  · rw [hwaiting] at hwaits
    cases hwaits
  · exact hparts

theorem isMet_meet (p : Progress) (node other : Node) (value? : Option Value) :
    (p.meet node value?).isMet other = (node.number == other.number || p.isMet other) := rfl

theorem isMet_of_meet (p : Progress) (node : Node) (value? : Option Value) :
    ∀ other, p.isMet other = true → (p.meet node value?).isMet other = true := by
  intro other hother
  rw [isMet_meet, hother, Bool.or_true]

theorem isMet_meet_self (p : Progress) (node : Node) (value? : Option Value) :
    (p.meet node value?).isMet node = true := by
  rw [isMet_meet, beq_self_eq_true, Bool.true_or]

theorem countP_unmet_le (nodes : List Node) (hmet : ∀ node, p.isMet node = true → p'.isMet node = true) :
    (nodes.countP fun node => !p'.isMet node) ≤ nodes.countP fun node => !p.isMet node := by
  apply List.countP_mono_left
  intro node _ hnode
  rw [Bool.not_eq_true'] at hnode ⊢
  exact Bool.eq_false_iff.mpr fun hbefore => Bool.eq_false_iff.mp hnode (hmet node hbefore)

/-- A node that is met is not counted any more. -/
theorem unmet_meet (hnode : node ∈ root.nodes) (hmet : p.isMet node = false) :
    (p.meet node value?).unmet root < p.unmet root := by
  obtain ⟨before, behind, hnodes⟩ := List.append_of_mem hnode
  have hbefore := countP_unmet_le before (isMet_of_meet p node value?)
  have hbehind := countP_unmet_le behind (isMet_of_meet p node value?)
  unfold unmet
  rw [hnodes, List.countP_append, List.countP_append, List.countP_cons, List.countP_cons, hmet, isMet_meet_self]
  simp only [Bool.not_true, Bool.not_false, Bool.false_eq_true, if_false, if_true]
  omega

/-- A node that is met is noted. -/
theorem IsSound.meet (h : p.IsSound root) (hroot : root.IsIdentified) (hnode : node ∈ root.nodes)
    (hnoted : node.IsNoted value?) : (p.meet node value?).IsSound root := by
  refine ⟨List.forall_mem_cons.mpr ⟨?_, h.noted⟩, h.waiting⟩
  intro other hother hnumber
  rw [hroot other hother node hnode hnumber]
  exact hnoted

/-- A step that meets a node, and then goes on in such a way that the node waits or has all its parts met. -/
theorem Advances.of_meet (hroot : root.IsIdentified) (hnode : node ∈ root.nodes)
    (h : (p.meet node value?).Advances root p')
    (hnow : node ∈ p'.waiting ∨ (node.IsOpen → p'.HasParts node)) : p.Advances root p' where
  met := fun other hother => h.met other (isMet_of_meet p node value? other hother)
  waiting := h.waiting
  step := by
    intro other hother hmet
    rcases h.step other hother hmet with hbefore | hlater
    · rw [isMet_meet, Bool.or_eq_true] at hbefore
      rcases hbefore with heq | hbefore
      · obtain rfl := hroot node hnode other hother (eq_of_beq heq)
        exact .inr hnow
      · exact .inl hbefore
    · exact .inr hlater
  room := Nat.le_trans h.room (Nat.add_le_add_right (countP_unmet_le _ (isMet_of_meet p node value?)) _)

/-- A node that has not been met takes the place of itself when it comes to wait. -/
theorem Advances.wait (hroot : root.IsIdentified) (hnode : node ∈ root.nodes) (hmet : p.isMet node = false) :
    p.Advances root { p.meet node value? with waiting := p.waiting ++ [node] } where
  met := isMet_of_meet p node value?
  waiting := List.subset_append_left _ _
  step := by
    intro other hother hnow
    rcases Bool.or_eq_true _ _ ▸ hnow with heq | hbefore
    · obtain rfl := hroot node hnode other hother (eq_of_beq heq)
      exact .inr (.inl (List.mem_append_right _ List.mem_cons_self))
    · exact .inl hbefore
  room := by
    have hless : (p.meet node value?).unmet root < p.unmet root := unmet_meet hnode hmet
    show (p.meet node value?).unmet root + (p.waiting ++ [node]).length ≤ p.unmet root + p.waiting.length
    rw [List.length_append, List.length_singleton]
    omega

section Opened

variable {others : List Node} (hwaiting : p.waiting = node :: others)
  (hadvances : Advances root { p with waiting := others } p')
include hwaiting hadvances

/-- After the collection that waited first has been opened, every node that has been met still waits or has its parts
met. -/
theorem IsSettled.opened (h : p.IsSettled root) (hparts : node.IsOpen → p'.HasParts node) : p'.IsSettled root := by
  intro other hother hmet
  rcases hadvances.step other hother hmet with hbefore | hnow
  · rcases h other hother hbefore with hwaits | hparts'
    · rw [hwaiting] at hwaits
      rcases List.mem_cons.mp hwaits with rfl | hothers
      · exact .inr hparts
      · exact .inl (hadvances.waiting hothers)
    · exact .inr fun hopen => (hparts' hopen).mono hadvances.met
  · exact hnow

theorem room_opened : p'.room root < p.room root := by
  have hless : p'.room root ≤ p.unmet root + others.length := hadvances.room
  have hlength : p.waiting.length = others.length + 1 := congrArg List.length hwaiting
  unfold room at hless ⊢
  omega

end Opened

end Progress

namespace Evaluation

/-- Whether a step goes on as it should from what is right, and reaches a goal if it succeeds. -/
def Leads (root : Node) (step : Evaluation Unit) (goal : Progress → Prop) : Prop :=
  ∀ ⦃p p'⦄, p.IsSound root → step p = .ok ((), p') → p'.IsSound root ∧ p.Advances root p' ∧ goal p'

variable {α : Type} {root node : Node} {p p' : Progress} {step next : Evaluation Unit} {goal goal' : Progress → Prop}

theorem run_bind_eq_ok {step : Evaluation α} {next : α → Evaluation Unit} (h : (step >>= next) p = .ok ((), p')) :
    ∃ a between, step p = .ok (a, between) ∧ next a between = .ok ((), p') := by
  obtain ⟨⟨a, between⟩, ha, hb⟩ := result_bind_eq_ok h
  exact ⟨a, between, ha, hb⟩

namespace Leads

theorem pure : Leads root (Pure.pure ()) fun _ => True := by
  intro p p' hsound hrun
  cases hrun
  exact ⟨hsound, .refl root p, trivial⟩

theorem fail (fault : Fault) : Leads root (Evaluation.fail fault) goal := by
  intro p p' _ hrun
  cases hrun

theorem mono (h : Leads root step goal) (hgoal : ∀ p, goal p → goal' p) : Leads root step goal' := by
  intro p p' hsound hrun
  obtain ⟨hsound', hadvances, hreached⟩ := h hsound hrun
  exact ⟨hsound', hadvances, hgoal p' hreached⟩

/-- One step and then another; what the first one has reached stays. -/
theorem andThen (h : Leads root step goal) (h' : Leads root next goal')
    (hkeep : ∀ p p', p.Advances root p' → goal p → goal p') :
    Leads root (step >>= fun _ => next) fun p => goal p ∧ goal' p := by
  intro p p' hsound hrun
  obtain ⟨_, between, hstep, hnext⟩ := run_bind_eq_ok hrun
  obtain ⟨hbetween, hfirst, hgoal⟩ := h hsound hstep
  obtain ⟨hsound', hsecond, hgoal'⟩ := h' hbetween hnext
  exact ⟨hsound', hfirst.trans hsecond, hkeep between p' hsecond hgoal, hgoal'⟩

/-- Two nodes, one met after the other. -/
theorem andMeet {first second : Node} (h : Leads root step fun p => p.isMet first = true)
    (h' : Leads root next fun p => p.isMet second = true) :
    Leads root (step >>= fun _ => next) fun p => ∀ node ∈ [first, second], p.isMet node = true := by
  refine (h.andThen h' fun p p' hadvances hmet => hadvances.met first hmet).mono fun p hmet => ?_
  exact List.forall_mem_cons.mpr ⟨hmet.1, List.forall_mem_cons.mpr ⟨hmet.2, nofun⟩⟩

/-- A step that depends on the progress. -/
theorem get {step : Progress → Evaluation Unit} (h : ∀ p, Leads root (step p) goal) :
    Leads root (MonadState.get >>= step) goal :=
  fun p _ hsound hrun => h p hsound hrun

theorem ite {c : Prop} [Decidable c] (h : Leads root step goal) (h' : Leads root next goal) :
    Leads root (if c then step else next) goal := by
  split
  · exact h
  · exact h'

/-- Nodes that are met one after the other. -/
theorem forM {β : Type} {items : List β} {step : β → Evaluation Unit} {nodes : β → List Node}
    (h : ∀ item ∈ items, Leads root (step item) fun p => ∀ node ∈ nodes item, p.isMet node = true) :
    Leads root (items.forM step) fun p => ∀ node ∈ items.flatMap nodes, p.isMet node = true := by
  induction items with
  | nil => exact pure.mono fun _ _ => nofun
  | cons item others ih =>
    obtain ⟨hitem, hothers⟩ := List.forall_mem_cons.mp h
    refine (hitem.andThen (ih hothers) ?_).mono ?_
    · intro p p' hadvances hmet node hnode
      exact hadvances.met node (hmet node hnode)
    · intro p hmet
      rw [List.flatMap_cons]
      exact List.forall_mem_append.mpr hmet

/-- Merging meets nothing. -/
theorem merge (node : Node) : Leads root (modify (·.merge node)) fun _ => True := by
  intro p p' hsound hrun
  cases hrun
  refine ⟨⟨hsound.noted, hsound.waiting⟩, ?_, trivial⟩
  exact ⟨fun _ h => h, List.Subset.refl _, fun _ _ h => .inl h, Nat.le_refl _⟩

end Leads

/-! ## Parts of collections -/

section Parts

variable {inside : Node → Evaluation Unit} {mark : Mark} {entries : List (Node × Node)} {context : Context}
  (hinside : ∀ inner ∈ root.nodes, Leads root (inside inner) fun p => p.isMet inner = true)
include hinside

theorem leads_entry {entry : Node × Node} (hkey : entry.1 ∈ root.nodes) (hvalue : entry.2 ∈ root.nodes) :
    Leads root (visitEntry inside mark entry) fun p => ∀ node ∈ [entry.1, entry.2], p.isMet node = true := by
  refine .andMeet (hinside entry.1 hkey) (.get fun p => .ite ?_ (hinside entry.2 hvalue))
  intro p p' _ hrun
  cases hrun

/-- The entries of a mapping, those that are merged among them. -/
theorem leads_entries {number : NodeNumber} {tag : Tag} (hnode : .mapping number tag entries mark ∈ root.nodes) :
    Leads root (visitEntries inside (.mapping number tag entries mark)) fun p =>
      p.HasParts (.mapping number tag entries mark) := by
  unfold visitEntries
  cases hmerged : Node.mergedEntries mark entries with
  | error fault =>
    simp only [Node.mark, Node.entries, hmerged]
    exact .fail fault
  | ok merged =>
    simp only [Node.mark, Node.entries, hmerged]
    have hentries : Leads root (merged.forM (visitEntry inside mark)) fun p =>
        ∀ part ∈ merged.flatMap fun entry => [entry.1, entry.2], p.isMet part = true := by
      apply Leads.forM
      intro entry hentry
      obtain ⟨hkey, hvalue⟩ : entry.1 ∈ (Node.mapping number tag entries mark).descendants ∧
        entry.2 ∈ (Node.mapping number tag entries mark).descendants :=
          Node.entry_mem (Node.mergedEntries_nodes hmerged hentry)
      exact leads_entry hinside (Node.descendant_mem hnode hkey) (Node.descendant_mem hnode hvalue)
    refine ((Leads.merge _).andThen hentries fun _ _ _ h => h).mono ?_
    rintro p ⟨-, hmet⟩
    refine ⟨_, ?_, hmet⟩
    rw [Node.parts]
    exact congrArg (Except.map _) hmerged

theorem leads_items (hnode : node ∈ root.nodes) : Leads root (visitItems inside node) fun p => p.HasParts node := by
  cases node with
  | sequence number tag items mark =>
    have hitems : Leads root (items.forM inside) fun p =>
        ∀ part ∈ items.flatMap fun item => [item], p.isMet part = true := by
      apply Leads.forM
      intro item hitem
      refine (hinside item (Node.descendant_mem hnode (Node.item_mem hitem))).mono ?_
      intro p hmet
      exact List.forall_mem_singleton.mpr hmet
    refine hitems.mono fun p hmet => ⟨items, rfl, ?_⟩
    rwa [List.flatMap_singleton'] at hmet
  | _ => exact .fail _

theorem leads_mapping (hnode : node ∈ root.nodes) : Leads root (visitMapping inside node) fun p => p.HasParts node := by
  cases node with
  | mapping _ _ _ _ => exact leads_entries hinside hnode
  | _ => exact .fail _

theorem leads_short (hnode : node ∈ root.nodes) : Leads root (visitShort inside node) fun p => p.HasParts node := by
  cases node with
  | scalar _ _ _ _ => exact Leads.pure.mono fun p _ => ⟨[], rfl, nofun⟩
  | enclosing _ _ _ _ _ => exact Leads.pure.mono fun p _ => ⟨[], rfl, nofun⟩
  | sequence _ _ _ _ => exact leads_items hinside hnode
  | mapping _ _ _ _ => exact leads_entries hinside hnode

omit hinside in
/-- The key and the value of the single entry of an item are nodes below it. -/
theorem pairEntry_mem {item : Node} {entry : Node × Node} (h : pairEntry p context mark item = .ok entry) :
    entry.1 ∈ item.descendants ∧ entry.2 ∈ item.descendants := by
  cases item with
  | mapping number tag entries start =>
    have hfound : ∀ found,
        (if p.merged.contains number then Node.mergedEntries start entries else .ok entries) = .ok found →
        ∀ entry ∈ found, entry.1 ∈ (Node.mapping number tag entries start).descendants ∧
          entry.2 ∈ (Node.mapping number tag entries start).descendants := by
      intro found hfound entry hentry
      apply Node.entry_mem
      split at hfound
      · exact Node.mergedEntries_nodes hfound hentry
      · cases hfound
        exact Node.entry_nodes hentry
    simp only [pairEntry] at h
    split at h
    · rename_i hentries
      cases h
      exact hfound _ hentries _ List.mem_cons_self
    · cases h
    · cases h
  | _ => cases h

theorem leads_pairs (hnode : node ∈ root.nodes) : Leads root (visitPairs inside context node) fun _ => True := by
  cases node with
  | sequence number tag items mark =>
    have hitems : Leads root (visitPairs inside context (.sequence number tag items mark)) fun p =>
        ∀ part ∈ items.flatMap fun _ => ([] : List Node), p.isMet part = true := by
      apply Leads.forM
      intro item hitem
      refine .get fun p => ?_
      cases hentry : pairEntry p context mark item with
      | error fault => exact .fail fault
      | ok entry =>
        have hitem := Node.descendant_mem hnode (Node.item_mem hitem)
        obtain ⟨hkey, hvalue⟩ := pairEntry_mem hentry
        have hmet := Leads.andMeet (hinside entry.1 (Node.descendant_mem hitem hkey))
          (hinside entry.2 (Node.descendant_mem hitem hvalue))
        exact hmet.mono fun _ _ => nofun
    exact hitems.mono fun _ _ => trivial
  | _ => exact .fail _

/-- A collection that is opened has its parts met. -/
theorem leads_openCollection (hnode : node ∈ root.nodes) :
    Leads root (openCollection inside node) fun p => node.IsOpen → p.HasParts node := by
  unfold openCollection
  split
  · exact (leads_items hinside hnode).mono fun _ h _ => h
  · exact (leads_mapping hinside hnode).mono fun _ h _ => h
  · exact (leads_mapping hinside hnode).mono fun _ h _ => h
  · rename_i htag
    exact (leads_pairs hinside hnode).mono fun _ _ hopen => absurd hopen (Node.not_isOpen htag nofun nofun)
  · rename_i htag
    exact (leads_pairs hinside hnode).mono fun _ _ hopen => absurd hopen (Node.not_isOpen htag nofun nofun)
  · exact .fail _

end Parts

/-! ## Nodes -/

theorem tagOf_cases (p : Progress) (node : Node) :
    p.tagOf node = node.tag ∨ node.tag = .core .value ∧ p.tagOf node = .core .string := by
  unfold Progress.tagOf
  split
  · rename_i h
    rw [Bool.and_eq_true, decide_eq_true_eq] at h
    exact .inr ⟨h.1, rfl⟩
  · exact .inl rfl

/-- A scalar is noted with the value that it has by itself; a mark for a value counts as a text. -/
theorem isNoted_scalar {core : CoreTag} {value : Value} (htag : p.tagOf node = .core core)
    (hscalar : core.isScalar = true) (hvalue : scalarOf p core node = .ok value) : node.IsNoted (some value) := by
  have hcore : node.tag = .core core ∨ node.tag = .core .value ∧ core = .string := by
    rcases tagOf_cases p node with h | ⟨h, h'⟩
    · exact .inl (h.symm.trans htag)
    · exact .inr ⟨h, Tag.core.inj (htag.symm.trans h')⟩
  refine ⟨?_, ?_, ?_⟩
  · intro name hname
    rcases hcore with h | ⟨h, -⟩
    all_goals cases h.symm.trans hname
  · intro other hother hcollection
    rcases hcore with h | ⟨h, -⟩
    · obtain rfl := Tag.core.inj (h.symm.trans hother)
      cases core <;> cases hscalar <;> cases hcollection
    · obtain rfl := Tag.core.inj (h.symm.trans hother)
      cases hcollection
  · rintro number other text mark rfl -
    refine ⟨value, rfl, ?_⟩
    obtain ⟨read, hread, hvalue⟩ := result_bind_eq_ok hvalue
    cases hread
    rw [if_neg (by simp [Node.kind])] at hvalue
    rcases hcore with h | ⟨h, rfl⟩
    · obtain rfl := Tag.core.inj h
      exact hvalue
    · obtain rfl := Tag.core.inj h
      exact hvalue

theorem tag_of_collection {core : CoreTag} (htag : p.tagOf node = .core core) (hcollection : core.isCollection = true) :
    node.tag = .core core := by
  rcases tagOf_cases p node with h | ⟨-, h⟩
  · exact h.symm.trans htag
  · cases h.symm.trans htag
    cases hcollection

section Nodes

variable (hroot : root.IsIdentified) {inside : Bool → Node → Evaluation Unit}
  (hinside : ∀ atOnce, ∀ inner ∈ root.nodes, Leads root (inside atOnce inner) fun p => p.isMet inner = true)
include hroot hinside

omit hinside in
/-- A scalar that is met. -/
theorem leads_scalar {core : CoreTag} (hnode : node ∈ root.nodes) (htag : p.tagOf node = .core core)
    (hscalar : core.isScalar = true) (hsound : p.IsSound root)
    (hrun : (ofExcept (scalarOf p core node) >>= fun value => modify (·.meet node (some value))) p = .ok ((), p')) :
    p'.IsSound root ∧ p.Advances root p' ∧ p'.isMet node = true := by
  obtain ⟨value, between, hvalue, hrun⟩ := run_bind_eq_ok hrun
  cases hof : scalarOf p core node with
  | error e =>
    rw [hof] at hvalue
    cases hvalue
  | ok found =>
    rw [hof] at hvalue
    cases hvalue
    cases hrun
    have hnoted := isNoted_scalar htag hscalar hof
    refine ⟨hsound.meet hroot hnode hnoted, ?_, Progress.isMet_meet_self _ _ _⟩
    exact .of_meet hroot hnode (.refl root _) (.inr fun hopen => absurd hopen hnoted.not_isOpen)

omit hinside in
/-- A node that is met when all its parts have been. -/
theorem leads_meetLast (hnode : node ∈ root.nodes) (hnoted : node.IsNoted none)
    (hstep : Leads root step fun p => node.IsOpen → p.HasParts node) :
    Leads root (step >>= fun _ => modify (·.meet node none)) fun p => p.isMet node = true := by
  intro p p' hsound hrun
  obtain ⟨_, between, hparts, hrun⟩ := run_bind_eq_ok hrun
  cases hrun
  obtain ⟨hbetween, hadvances, hparts⟩ := hstep hsound hparts
  have hmeet : between.Advances root (between.meet node none) :=
    .of_meet hroot hnode (.refl root _) (.inr fun hopen => (hparts hopen).mono (Progress.isMet_of_meet between node none))
  exact ⟨hbetween.meet hroot hnode hnoted, hadvances.trans hmeet, Progress.isMet_meet_self _ _ _⟩

/-- A collection that is opened at once, or met and left for later. -/
theorem leads_collection {core : CoreTag} {atOnce : Bool} (hnode : node ∈ root.nodes) (hmet : p.isMet node = false)
    (htag : p.tagOf node = .core core) (hcollection : core.isCollection = true) (hsound : p.IsSound root)
    (hrun : (if atOnce then openCollection (inside true) node >>= fun _ => modify (·.meet node none)
      else modify fun p => { p.meet node none with waiting := p.waiting ++ [node] }) p = .ok ((), p')) :
    p'.IsSound root ∧ p.Advances root p' ∧ p'.isMet node = true := by
  have hnoted : node.IsNoted none := by
    refine Node.isNoted_none ?_
    rintro number other text mark hother rfl
    obtain rfl := Tag.core.inj (tag_of_collection htag hcollection)
    cases hcollection.symm.trans hother
  cases atOnce with
  | true => exact leads_meetLast hroot hnode hnoted (leads_openCollection (hinside true) hnode) hsound hrun
  | false =>
    cases hrun
    have hsound := hsound.meet hroot hnode hnoted
    refine ⟨⟨hsound.noted, ?_⟩, .wait hroot hnode hmet, Progress.isMet_meet_self p node none⟩
    exact List.forall_mem_append.mpr ⟨hsound.waiting, List.forall_mem_singleton.mpr hnode⟩

/-- A node with a short tag: its parts come first, and it is met in the end. -/
theorem leads_tagged {name : String} (hnode : node ∈ root.nodes) (htag : p.tagOf node = .short name) :
    Leads root (visitShort (inside true) node >>= fun _ => modify (·.meet node none)) fun p => p.isMet node = true := by
  have hshort : node.tag = .short name := by
    rcases tagOf_cases p node with h | ⟨-, h⟩
    · exact h.symm.trans htag
    · cases h.symm.trans htag
  have hnoted : node.IsNoted none := by
    refine Node.isNoted_none ?_
    rintro number core text mark - rfl
    cases hshort
  exact leads_meetLast hroot hnode hnoted ((leads_short (hinside true) hnode).mono fun p hparts _ => hparts)

omit hinside in
/-- An alias inside the collection that it names is met if the collection has been. -/
theorem leads_enclosing {target : NodeNumber} (hnode : node ∈ root.nodes) (htarget : node.target? = some target) :
    Leads root (visitEnclosing p target node) fun p => p.isMet node = true := by
  cases node with
  | enclosing number target' tag kind mark =>
    refine .ite (fun p p' hsound hrun => ?_) (.fail _)
    cases hrun
    have hnoted : (Node.enclosing number target' tag kind mark).IsNoted none := Node.isNoted_none nofun
    have hparts : p.HasParts (.enclosing number target' tag kind mark) := ⟨[], rfl, nofun⟩
    refine ⟨hsound.meet hroot hnode hnoted, .of_meet hroot hnode (.refl root _) (.inr fun _ => ?_),
      Progress.isMet_meet_self _ _ _⟩
    exact hparts.mono (Progress.isMet_of_meet p _ none)
  | _ => cases htarget

/-- A node that has not been met is met. -/
theorem leads_visitContent (atOnce : Bool) (hnode : node ∈ root.nodes) (hmet : p.isMet node = false)
    (hsound : p.IsSound root) (hrun : visitContent inside atOnce p node p = .ok ((), p')) :
    p'.IsSound root ∧ p.Advances root p' ∧ p'.isMet node = true := by
  unfold visitContent at hrun
  cases htag : p.tagOf node with
  | other text =>
    rw [htag] at hrun
    cases hrun
  | short name =>
    rw [htag] at hrun
    exact leads_tagged hroot hinside hnode htag hsound hrun
  | core core =>
    simp only [htag] at hrun
    by_cases hscalar : core.isScalar = true
    · rw [if_pos hscalar] at hrun
      exact leads_scalar hroot hnode htag hscalar hsound hrun
    rw [if_neg hscalar] at hrun
    by_cases hcollection : core.isCollection = true
    · rw [if_pos hcollection] at hrun
      exact leads_collection hroot hinside hnode hmet htag hcollection hsound hrun
    · rw [if_neg hcollection] at hrun
      cases hrun

/-- A node that has been met is left alone. Otherwise it is met. -/
theorem leads_visitWith (atOnce : Bool) (hnode : node ∈ root.nodes) :
    Leads root (visitWith inside atOnce node) fun p => p.isMet node = true := by
  intro p p' hsound hrun
  obtain ⟨_, _, hget, hrun⟩ := run_bind_eq_ok hrun
  cases hget
  by_cases hmet : p.isMet node = true
  · rw [if_pos hmet] at hrun
    cases hrun
    exact ⟨hsound, .refl root p, hmet⟩
  rw [if_neg hmet] at hrun
  cases htarget : node.target? with
  | some target =>
    rw [htarget] at hrun
    exact leads_enclosing hroot hnode htarget hsound hrun
  | none =>
    rw [htarget] at hrun
    exact leads_visitContent hroot hinside atOnce hnode (Bool.eq_false_iff.mpr hmet) hsound hrun

omit hinside in
theorem leads_visit (bound : Nat) (atOnce : Bool) :
    ∀ node ∈ root.nodes, Leads root (visit bound atOnce node) fun p => p.isMet node = true := by
  induction bound generalizing atOnce with
  | zero => exact fun _ _ => .fail _
  | succ bound ih => exact fun _ hnode => leads_visitWith hroot ih atOnce hnode

end Nodes

/-! ## Rounds -/

section Rounds

variable {bound count : Nat}

theorem openWaiting_nil (h : p.waiting = []) : openWaiting bound (count + 1) p = .ok ((), p) := by
  obtain ⟨met, waiting, merged, texts⟩ := p
  obtain rfl : waiting = [] := h
  rfl

theorem openWaiting_cons {others : List Node} (h : p.waiting = node :: others) :
    openWaiting bound (count + 1) p = (openCollection (visit bound false) node { p with waiting := others } >>= fun r =>
      openWaiting bound count r.2) := by
  obtain ⟨met, waiting, merged, texts⟩ := p
  obtain rfl : waiting = node :: others := h
  rfl

/-- Each round opens the collection that waits first. With enough rounds none is left, and the nodes met have all
their parts met. -/
theorem openWaiting_settles (hroot : root.IsIdentified) (hsound : p.IsSound root)
    (hsettled : p.IsSettled root) (hroom : p.room root ≤ count) (hrun : openWaiting bound count p = .ok ((), p')) :
    p'.IsSound root ∧ (∀ node, p.isMet node = true → p'.isMet node = true) ∧
      ∀ node ∈ root.nodes, p'.isMet node = true → node.IsOpen → p'.HasParts node := by
  -- by induction on the rounds: what is settled stays so, and each round leaves less room
  induction count generalizing p with
  | zero =>
    cases hrun
    have hwaiting : p'.waiting = [] := List.eq_nil_of_length_eq_zero (by unfold Progress.room at hroom; omega)
    exact ⟨hsound, fun _ h => h, hsettled.parts hwaiting⟩
  | succ count ih =>
    cases hwaiting : p.waiting with
    | nil =>
      rw [openWaiting_nil hwaiting] at hrun
      cases hrun
      exact ⟨hsound, fun _ h => h, hsettled.parts hwaiting⟩
    | cons first others =>
      rw [openWaiting_cons hwaiting] at hrun
      obtain ⟨⟨_, between⟩, hopen, hrun⟩ := result_bind_eq_ok hrun
      have hwaits : ∀ node ∈ first :: others, node ∈ root.nodes := hwaiting ▸ hsound.waiting
      obtain ⟨hfirst, hothers⟩ := List.forall_mem_cons.mp hwaits
      have hpopped : Progress.IsSound root { p with waiting := others } := ⟨hsound.noted, hothers⟩
      obtain ⟨hbetween, hadvances, hparts⟩ := leads_openCollection (leads_visit hroot bound false) hfirst hpopped hopen
      have hroom' : between.room root ≤ count := by
        have hless := Progress.room_opened hwaiting hadvances
        omega
      obtain ⟨hsound', hmet, hall⟩ := ih hbetween (hsettled.opened hwaiting hadvances hparts) hroom' hrun
      exact ⟨hsound', fun node h => hmet node (hadvances.met node h), hall⟩

end Rounds

end Evaluation

/-! ## Documents -/

namespace Node

/-- Whether a node can be reached from another one through sequences, mappings and nodes with short tags. -/
inductive Reaches (root : Node) : Node → Prop where
  | root : Reaches root root
  | part {node part : Node} {parts : List Node} : Reaches root node → node.IsOpen → node.parts = .ok parts →
    part ∈ parts → Reaches root part

theorem Reaches.mem_nodes {root node : Node} (h : root.Reaches node) : node ∈ root.nodes := by
  induction h with
  | root => exact root.mem_nodes_self
  | part _ _ hparts hpart ih => exact descendant_mem ih (parts_mem hparts hpart)

end Node

variable {root : Node} {p : Progress}

/-- What has been met is noted. -/
theorem Progress.IsSound.value? (h : p.IsSound root) {node : Node} (hnode : node ∈ root.nodes)
    (hmet : p.isMet node = true) : node.IsNoted (p.value? node) := by
  obtain ⟨entry, hentry, hnumber⟩ := List.any_eq_true.mp hmet
  cases hlookup : p.met.lookup node.number with
  | none =>
    have hother := List.lookup_eq_none_iff.mp hlookup entry hentry
    exact absurd (eq_of_beq hnumber).symm (bne_iff_ne.mp hother)
  | some value? =>
    obtain ⟨before, behind, hmet, -⟩ := List.lookup_eq_some_iff.mp hlookup
    rw [Progress.value?, hlookup]
    exact h.noted (node.number, value?) (hmet ▸ List.mem_append_right _ List.mem_cons_self) node hnode rfl

/-- When a document has been evaluated, every node that can be reached has been met, it is noted with the value that it
has by itself, and its parts are known. -/
theorem evaluate_reached (hroot : root.IsIdentified) (h : evaluate root = .ok p) {node : Node}
    (hnode : root.Reaches node) :
    node.IsNoted (p.value? node) ∧ (node.IsOpen → ∃ parts, node.parts = .ok parts) := by
  obtain ⟨⟨_, between⟩, hvisit, h⟩ := result_bind_eq_ok h
  obtain ⟨⟨_, after⟩, hopen, h⟩ := result_bind_eq_ok h
  cases h
  have hstart : Progress.start.IsSound root := ⟨nofun, nofun⟩
  obtain ⟨hbetween, hadvances, hmet⟩ :=
    Evaluation.leads_visit hroot root.weight false root root.mem_nodes_self hstart hvisit
  have hsettled : between.IsSettled root := by
    intro node hnode hmet
    rcases hadvances.step node hnode hmet with hstart | hnow
    · cases hstart
    · exact hnow
  have hroom : between.room root ≤ root.weight := by
    apply Nat.le_trans hadvances.room
    rw [← root.length_nodes]
    exact List.countP_le_length
  obtain ⟨hsound, hkeep, hparts⟩ := Evaluation.openWaiting_settles hroot hbetween hsettled hroom hopen
  -- the nodes met are closed under parts, so they hold what can be reached from the root
  have hreached : p.isMet node = true := by
    induction hnode with
    | root => exact hkeep root hmet
    | part hreached hopen hknown hpart ih =>
      obtain ⟨parts, hparts, hall⟩ := hparts _ hreached.mem_nodes ih hopen
      cases hknown.symm.trans hparts
      exact hall _ hpart
  refine ⟨hsound.value? hnode.mem_nodes hreached, fun hopen => ?_⟩
  obtain ⟨parts, hknown, -⟩ := hparts node hnode.mem_nodes hreached hopen
  exact ⟨parts, hknown⟩

end ResolverWiring.Yaml
