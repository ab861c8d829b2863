import ResolverWiring.Proofs.Yaml.Evaluated
import ResolverWiring.Yaml.Load

/-!
# `Proofs.Yaml.PlainLoading` — loading without short tags

A loader that knows nothing of short tags (`loadPlain`) gives a local tag no value, so it never opens a collection at
once: every one waits. A document without short tags is loaded by `load` just as by this loader, whether with a value
or with an error (`load_eq_loadPlain`).

The two loaders meet the same nodes in the same order, so their steps are equal as functions
(`visit_eq_visitPlain`), and so are the rounds, as long as only nodes of the document wait.
-/

namespace ResolverWiring.Yaml

/-! ## The plain loader -/

namespace Evaluation

/-- Meets a node that is no alias inside a collection. A collection waits, and a tag that is none of the language gives
no value. -/
def visitPlainContent (p : Progress) (node : Node) : Evaluation Unit :=
  match p.tagOf node with
  | .core tag =>
    if tag.isScalar then do
      let value ← ofExcept (scalarOf p tag node)
      modify (·.meet node (some value))
    else if tag.isCollection then
      modify fun p => { p.meet node none with waiting := p.waiting ++ [node] }
    else unknown node
  | _ => unknown node

/-- Meets a node. -/
def visitPlain (node : Node) : Evaluation Unit := do
  let p ← get
  if p.isMet node then return ()
  match node.target? with
  | some target => visitEnclosing p target node
  | none => visitPlainContent p node

/-- Opens up to `count` collections that wait, and those that come to wait meanwhile. -/
def openWaitingPlain : Nat → Evaluation Unit
  | 0 => return ()
  | count + 1 => do
    match (← get).waiting with
    | [] => return ()
    | node :: others =>
      modify fun p => { p with waiting := others }
      openCollection visitPlain node
      openWaitingPlain count

end Evaluation

/-- Meets all nodes of a document. -/
def evaluatePlain (root : Node) : Except LoadError Progress := do
  let (_, p) ← Evaluation.visitPlain root .start
  let (_, p) ← Evaluation.openWaitingPlain root.weight p
  return p

namespace Value

/-- What a node denotes that is tagged as a collection. -/
def ofPlainCollection (inside : Node → Value) (node : Node) : Value :=
  match node.tag with
  | .core .set => set (some node.number) ((ofEntries (mergedValues inside node)).map (·.1))
  | .core .orderedMap => list (node.items.flatMap (pairsOf inside))
  | .core .pairs => list (node.items.flatMap (pairsOf inside))
  | _ => ofForm inside node

/-- What a node denotes in a document with this root that has been evaluated; the tree below the node has at most
`bound` levels. -/
def assemblePlain (root : Node) (p : Progress) : Nat → Node → Value
  | 0, _ => null
  | bound + 1, node =>
    match node.target? with
    | some target => enclosing root target
    | none => (p.value? node).getD (ofPlainCollection (assemblePlain root p bound) node)

end Value

/-- The value that a text denotes to a loader that does not know short tags. -/
def loadPlain (text : String) : Except LoadError Value := do
  checkCharacters text.toList
  match ← parseDocument (lex text.toList) with
  | none => return .null
  | some root => return Value.assemblePlain root (← evaluatePlain root) root.weight root

/-- Whether a tree has no short tags. -/
def Node.IsPlain (root : Node) : Prop := ∀ node ∈ root.nodes, ∀ name, node.tag ≠ .short name

/-! ## The same steps -/

namespace Evaluation

variable {root node : Node} {p p' : Progress} {bound count : Nat}

theorem visitContent_eq_visitPlainContent (h : ∀ name, node.tag ≠ .short name) :
    visitContent (visit bound) false p node = visitPlainContent p node := by
  unfold visitContent visitPlainContent
  cases htag : p.tagOf node with
  | short name =>
    rcases tagOf_cases p node with hkept | ⟨-, htext⟩
    · exact absurd (hkept.symm.trans htag) (h name)
    · cases htext.symm.trans htag
  | other text => rfl
  | core core => rfl

theorem visit_eq_visitPlain (h : ∀ name, node.tag ≠ .short name) :
    visit (bound + 1) false node = visitPlain node := by
  funext p
  show (if p.isMet node = true then _ else match node.target? with
      | some target => visitEnclosing p target node
      | none => visitContent (visit bound) false p node : Evaluation Unit) p
    = (if p.isMet node = true then _ else match node.target? with
      | some target => visitEnclosing p target node
      | none => visitPlainContent p node : Evaluation Unit) p
  rw [visitContent_eq_visitPlainContent h]

section Parts

variable {inside inside' : Node → Evaluation Unit} {context : Context}

theorem forM_congr {α : Type} {items : List α} {f g : α → Evaluation Unit} (h : ∀ item ∈ items, f item = g item) :
    items.forM f = items.forM g := by
  induction items with
  | nil => rfl
  | cons item others ih =>
    obtain ⟨hitem, hothers⟩ := List.forall_mem_cons.mp h
    show (f item >>= fun _ => others.forM f) = (g item >>= fun _ => others.forM g)
    rw [hitem, ih hothers]

variable (h : ∀ inner ∈ node.descendants, inside inner = inside' inner)
include h

theorem visitEntries_congr : visitEntries inside node = visitEntries inside' node := by
  unfold visitEntries
  cases hmerged : Node.mergedEntries node.mark node.entries with
  | error fault => rfl
  | ok merged =>
    have hentries : merged.forM (visitEntry inside node.mark) = merged.forM (visitEntry inside' node.mark) := by
      apply forM_congr
      intro entry hentry
      obtain ⟨hkey, hvalue⟩ := Node.entry_mem (Node.mergedEntries_nodes hmerged hentry)
      unfold visitEntry
      rw [h entry.1 hkey, h entry.2 hvalue]
    exact congrArg (fun step : Evaluation Unit => modify (·.merge node) >>= fun _ => step) hentries

theorem visitItems_congr : visitItems inside node = visitItems inside' node := by
  cases node with
  | sequence _ _ items _ => exact forM_congr fun item hitem => h item (Node.item_mem hitem)
  | _ => rfl

theorem visitMapping_congr : visitMapping inside node = visitMapping inside' node := by
  cases node with
  | mapping _ _ _ _ => exact visitEntries_congr h
  | _ => rfl

theorem visitPairs_congr : visitPairs inside context node = visitPairs inside' context node := by
  cases node with
  | sequence number tag items mark =>
    apply forM_congr
    intro item hitem
    apply congrArg (MonadState.get >>= ·)
    funext p
    cases hentry : pairEntry p context mark item with
    | error fault => rfl
    | ok entry =>
      have hbelow : item.nodes ⊆ (Node.sequence number tag items mark).descendants := Node.item_nodes hitem
      obtain ⟨hkey, hvalue⟩ := pairEntry_mem hentry
      show (inside entry.1 >>= fun _ => inside entry.2) = (inside' entry.1 >>= fun _ => inside' entry.2)
      rw [h entry.1 (hbelow (item.descendants_subset hkey)), h entry.2 (hbelow (item.descendants_subset hvalue))]
  | _ => rfl

/-- Opening a collection depends on what happens to the nodes below it. -/
theorem openCollection_congr : openCollection inside node = openCollection inside' node := by
  unfold openCollection
  rw [visitItems_congr h, visitMapping_congr h, visitPairs_congr h, visitPairs_congr h]

end Parts

theorem openWaitingPlain_nil (h : p.waiting = []) : openWaitingPlain (count + 1) p = .ok ((), p) := by
  obtain ⟨met, waiting, merged, texts⟩ := p
  obtain rfl : waiting = [] := h
  rfl

theorem openWaitingPlain_cons {others : List Node} (h : p.waiting = node :: others) :
    openWaitingPlain (count + 1) p = (openCollection visitPlain node { p with waiting := others } >>= fun r =>
      openWaitingPlain count r.2) := by
  obtain ⟨met, waiting, merged, texts⟩ := p
  obtain rfl : waiting = node :: others := h
  rfl

/-- As long as only nodes of the document wait, the rounds are the same. -/
theorem openWaiting_eq_openWaitingPlain (hroot : root.IsIdentified) (hplain : root.IsPlain) (hsound : p.IsSound root) :
    openWaiting (bound + 1) count p = openWaitingPlain count p := by
  induction count generalizing p with
  | zero => rfl
  | succ count ih =>
    -- what waits is a node of the document, and so is all that is met when it is opened
    have hnodes {node : Node} (hnode : node ∈ root.nodes) :
        openCollection (visit (bound + 1) false) node = openCollection visitPlain node :=
      openCollection_congr fun inner hinner => visit_eq_visitPlain (hplain inner (Node.descendant_mem hnode hinner))
    cases hwaiting : p.waiting with
    | nil => rw [openWaiting_nil hwaiting, openWaitingPlain_nil hwaiting]
    | cons first others =>
      have hwaits : ∀ node ∈ first :: others, node ∈ root.nodes := hwaiting ▸ hsound.waiting
      obtain ⟨hfirst, hothers⟩ := List.forall_mem_cons.mp hwaits
      have hpopped : Progress.IsSound root { p with waiting := others } := ⟨hsound.noted, hothers⟩
      rw [openWaiting_cons hwaiting, openWaitingPlain_cons hwaiting, hnodes hfirst]
      cases hopen : openCollection visitPlain first { p with waiting := others } with
      | error e =>
        show (Except.error e : Except LoadError _) = .error e
        rfl
      | ok result =>
        obtain ⟨⟨⟩, between⟩ := result
        rw [← hnodes hfirst] at hopen
        exact ih (leads_openCollection (leads_visit hroot _ false) hfirst hpopped hopen).1

end Evaluation

/-! ## The same values -/

variable {root node : Node} {p : Progress}

theorem evaluate_eq_evaluatePlain (hroot : root.IsIdentified) (hplain : root.IsPlain) :
    evaluate root = evaluatePlain root := by
  obtain ⟨bound, hbound⟩ := Nat.exists_eq_add_one_of_ne_zero (Nat.ne_of_gt root.weight_pos)
  have hvisit : Evaluation.visit root.weight false root = Evaluation.visitPlain root := by
    rw [hbound]
    exact Evaluation.visit_eq_visitPlain (hplain root root.mem_nodes_self)
  have hstart : Progress.start.IsSound root := ⟨nofun, nofun⟩
  unfold evaluate evaluatePlain
  rw [hvisit]
  cases hrun : Evaluation.visitPlain root .start with
  | error e =>
    show (Except.error e : Except LoadError _) = .error e
    rfl
  | ok result =>
    obtain ⟨⟨⟩, between⟩ := result
    rw [← hvisit] at hrun
    -- the first visit leaves only nodes of the document waiting
    have hsound := (Evaluation.leads_visit hroot root.weight false root root.mem_nodes_self hstart hrun).1
    have hrounds : Evaluation.openWaiting root.weight root.weight between
        = Evaluation.openWaitingPlain root.weight between := by
      rw [hbound]
      exact Evaluation.openWaiting_eq_openWaitingPlain hroot hplain hsound
    show (Evaluation.openWaiting root.weight root.weight between >>= _)
      = (Evaluation.openWaitingPlain root.weight between >>= _)
    rw [hrounds]

namespace Value

section Parts

variable {inside inside' : Node → Value} (h : ∀ inner ∈ node.descendants, inside inner = inside' inner)
include h

theorem mergedValues_congr : mergedValues inside node = mergedValues inside' node := by
  unfold mergedValues
  cases hmerged : Node.mergedEntries node.mark node.entries with
  | error fault => rfl
  | ok merged =>
    apply List.map_congr_left
    intro entry hentry
    obtain ⟨hkey, hvalue⟩ := Node.entry_mem (Node.mergedEntries_nodes hmerged hentry)
    rw [h entry.1 hkey, h entry.2 hvalue]

theorem ofForm_congr : ofForm inside node = ofForm inside' node := by
  cases node with
  | scalar _ _ _ _ => rfl
  | sequence _ _ items _ => exact congrArg list (List.map_congr_left fun item hitem => h item (Node.item_mem hitem))
  | mapping _ _ _ _ => exact congrArg (map ∘ ofEntries) (mergedValues_congr h)
  | enclosing _ _ _ _ _ => rfl

theorem pairs_congr : node.items.flatMap (pairsOf inside) = node.items.flatMap (pairsOf inside') := by
  refine List.flatMap_congr fun item hitem => ?_
  have hitem : ∀ inner ∈ item.descendants, inside inner = inside' inner :=
    fun inner hinner => h inner (Node.item_nodes hitem (item.descendants_subset hinner))
  unfold pairsOf
  rw [mergedValues_congr hitem]

/-- What a collection denotes depends on what the nodes below it denote. -/
theorem ofCollection_congr : ofCollection inside node = ofCollection inside' node := by
  unfold ofCollection
  rw [ofForm_congr h, mergedValues_congr h, pairs_congr h]

end Parts

theorem ofCollection_eq_ofPlainCollection (inside : Node → Value) (h : ∀ name, node.tag ≠ .short name) :
    ofCollection inside node = ofPlainCollection inside node := by
  unfold ofCollection ofPlainCollection
  split
  · rename_i name htag
    exact absurd htag (h name)
  all_goals simp_all

theorem assemble_eq_assemblePlain (root : Node) (p : Progress) (bound : Nat) (hplain : node.IsPlain) :
    assemble root p bound node = assemblePlain root p bound node := by
  induction bound generalizing node with
  | zero => rfl
  | succ bound ih =>
    have hinside : ∀ inner ∈ node.descendants, assemble root p bound inner = assemblePlain root p bound inner := by
      intro inner hinner
      apply ih
      intro other hother
      exact hplain other (Node.nodes_trans (node.descendants_subset hinner) hother)
    have hcollection :
        ofCollection (assemble root p bound) node = ofPlainCollection (assemblePlain root p bound) node := by
      rw [ofCollection_congr hinside, ofCollection_eq_ofPlainCollection _ (hplain node node.mem_nodes_self)]
    unfold assemble assemblePlain
    cases node.target? with
    | some target => rfl
    | none => exact congrArg (p.value? node).getD hcollection

end Value

/-- A document without short tags is loaded as a loader loads it that does not know them. -/
theorem load_eq_loadPlain {text : String}
    (h : ∀ root, parseDocument (lex text.toList) = .ok (some root) → root.IsPlain) : load text = loadPlain text := by
  unfold load loadPlain
  cases checkCharacters text.toList with
  | error e => rfl
  | ok u =>
    cases hparse : parseDocument (lex text.toList) with
    | error e => rfl
    | ok root? =>
      cases root? with
      | none => rfl
      | some root =>
        have hplain := h root hparse
        have hevaluate := evaluate_eq_evaluatePlain (parseDocument_isIdentified hparse) hplain
        show (evaluate root >>= fun p => .ok (Value.assemble root p root.weight root))
          = (evaluatePlain root >>= fun p => .ok (Value.assemblePlain root p root.weight root))
        simp only [hevaluate, Value.assemble_eq_assemblePlain _ _ _ hplain]

end ResolverWiring.Yaml
