import ResolverWiring.Proofs.Yaml.Evaluated
import ResolverWiring.Proofs.Yaml.Mapping
import ResolverWiring.Yaml.Load

/-!
# `Proofs.Yaml.LoadedKeys` — the mappings of a loaded value

Every mapping in a value that is loaded from a text has distinct keys, however deep it stands in other collections
(`load_hasDistinctKeys`): a mapping is written with its entries one after the other, and each of them takes the place
of one with the same key. Where a collection stands in itself, this holds of what it is opened as
(`Value.opened_hasDistinctKeys`).

Mappings come from collections only. The values that are noted while a document is evaluated are those of scalars,
which hold no mapping (`Progress.NotesAtoms`); every step of the evaluation keeps it that way.
-/

namespace ResolverWiring.Yaml

namespace Value

variable {inner value key : Value} {items : List Value} {entries others : Entries}

/-! ## Values in others -/

/-- Whether a value is another one or stands in it, as an item or under a key. -/
inductive Within : Value → Value → Prop where
  | self (value : Value) : Within value value
  | item {inner item : Value} {items : List Value} : item ∈ items → Within inner item → Within inner (.list items)
  | member {inner item : Value} {items : List Value} : item ∈ items → Within inner item → Within inner (.tuple items)
  | entry {inner : Value} {entry : Value × Value} {entries : Entries} : entry ∈ entries → Within inner entry.2 →
    Within inner (.map entries)

/-- Whether all mappings in a value have distinct keys. -/
def HasDistinctKeys (value : Value) : Prop := ∀ entries, (map entries).Within value → DistinctKeys entries

theorem hasDistinctKeys_list : (list items).HasDistinctKeys ↔ ∀ item ∈ items, item.HasDistinctKeys := by
  constructor
  · intro h item hitem entries hentries
    exact h entries (.item hitem hentries)
  · intro h entries hentries
    cases hentries with
    | item hitem hinner => exact h _ hitem entries hinner

theorem hasDistinctKeys_tuple : (tuple items).HasDistinctKeys ↔ ∀ item ∈ items, item.HasDistinctKeys := by
  constructor
  · intro h item hitem entries hentries
    exact h entries (.member hitem hentries)
  · intro h entries hentries
    cases hentries with
    | member hitem hinner => exact h _ hitem entries hinner

theorem hasDistinctKeys_map :
    (map entries).HasDistinctKeys ↔ DistinctKeys entries ∧ ∀ entry ∈ entries, entry.2.HasDistinctKeys := by
  constructor
  · intro h
    refine ⟨h entries (.self _), ?_⟩
    intro entry hentry inner hinner
    exact h inner (.entry hentry hinner)
  · rintro ⟨hdistinct, hentries⟩ inner hinner
    cases hinner with
    | self => exact hdistinct
    | entry hentry hinner => exact hentries _ hentry inner hinner

/-- Whether a value is no collection that other values stand in. -/
def IsAtom : Value → Prop
  | .list _ => False
  | .tuple _ => False
  | .map _ => False
  | _ => True

theorem IsAtom.hasDistinctKeys (h : value.IsAtom) : value.HasDistinctKeys := by
  intro entries hentries
  cases hentries <;> cases h

/-! ## Entries that are added -/

theorem value_insert_mem {entry : Value × Value} (h : entry ∈ insert entries key value) :
    entry.2 = value ∨ entry ∈ entries := by
  induction entries with
  | nil => exact .inl (by rw [List.mem_singleton.mp h])
  | cons first entries ih =>
    obtain ⟨k, v⟩ := first
    unfold insert at h
    split at h
    · rcases List.mem_cons.mp h with rfl | hmem
      · exact .inl rfl
      · exact .inr (List.mem_cons_of_mem _ hmem)
    · rcases List.mem_cons.mp h with rfl | hmem
      · exact .inr List.mem_cons_self
      · exact (ih hmem).imp_right (List.mem_cons_of_mem _)

/-- The values of entries that are laid over others are among the values of both. -/
theorem value_overlay_mem {entry : Value × Value} (h : entry ∈ overlay entries others) :
    (∃ other ∈ others, entry.2 = other.2) ∨ entry ∈ entries := by
  induction others generalizing entries with
  | nil => exact .inr h
  | cons other others ih =>
    rcases ih h with ⟨later, hlater, heq⟩ | hmem
    · exact .inl ⟨later, List.mem_cons_of_mem _ hlater, heq⟩
    · rcases value_insert_mem hmem with heq | hmem
      · exact .inl ⟨other, List.mem_cons_self, heq⟩
      · exact .inr hmem

/-- Entries that are laid over a mapping leave all keys distinct, also further below. -/
theorem HasDistinctKeys.overlay (h : (map entries).HasDistinctKeys)
    (hothers : ∀ other ∈ others, other.2.HasDistinctKeys) : (map (overlay entries others)).HasDistinctKeys := by
  obtain ⟨hdistinct, hentries⟩ := hasDistinctKeys_map.mp h
  refine hasDistinctKeys_map.mpr ⟨hdistinct.overlay others, ?_⟩
  intro entry hentry
  rcases value_overlay_mem hentry with ⟨other, hother, heq⟩ | hmem
  · rw [heq]
    exact hothers other hother
  · exact hentries entry hmem

/-- A mapping that is written with entries has distinct keys, also further below. -/
theorem hasDistinctKeys_ofEntries (h : ∀ entry ∈ entries, entry.2.HasDistinctKeys) :
    (map (ofEntries entries)).HasDistinctKeys := by
  have hnone : (map []).HasDistinctKeys := hasDistinctKeys_map.mpr ⟨List.Pairwise.nil, nofun⟩
  exact hnone.overlay h

end Value

/-! ## Scalars -/

theorem isAtom_of_mapError {α ε ε' : Type} {result : Except ε α} {make : α → Value} {wrap : ε → ε'} {value : Value}
    (hmake : ∀ a, (make a).IsAtom) (h : (result.map make).mapError wrap = .ok value) : value.IsAtom := by
  cases result with
  | error e => cases h
  | ok a =>
    cases h
    exact hmake a

theorem isAtom_scalarValue {tag : CoreTag} {number : NodeNumber} {text : List Char} {mark : Mark} {value : Value}
    (h : scalarValue tag number text mark = .ok value) : value.IsAtom := by
  cases tag with
  | null =>
    cases h
    trivial
  | bool =>
    refine isAtom_of_mapError (fun _ => ?_) h
    trivial
  | int =>
    refine isAtom_of_mapError (fun _ => ?_) h
    trivial
  | float =>
    refine isAtom_of_mapError (fun _ => ?_) h
    trivial
  | binary =>
    refine isAtom_of_mapError (fun _ => ?_) h
    trivial
  | timestamp =>
    refine isAtom_of_mapError (fun read => ?_) h
    cases read <;> trivial
  | _ =>
    cases h
    trivial

theorem isAtom_scalarOf {p : Progress} {tag : CoreTag} {node : Node} {value : Value}
    (h : scalarOf p tag node = .ok value) : value.IsAtom := by
  obtain ⟨text, -, h⟩ := result_bind_eq_ok h
  split at h
  · cases h
  · exact isAtom_scalarValue h

/-! ## Steps -/

/-- Whether the values that are noted are those of scalars. -/
def Progress.NotesAtoms (p : Progress) : Prop := ∀ number value, (number, some value) ∈ p.met → value.IsAtom

theorem Progress.NotesAtoms.meet {p : Progress} (h : p.NotesAtoms) (node : Node) {value? : Option Value}
    (hvalue : ∀ value ∈ value?, value.IsAtom) : (p.meet node value?).NotesAtoms := by
  intro number value hmem
  rcases List.mem_cons.mp hmem with heq | hmem
  · exact hvalue value (Prod.mk.inj heq).2.symm
  · exact h number value hmem

namespace Evaluation

/-- Whether a step notes the values of scalars only. -/
def KeepsAtoms {α : Type} (step : Evaluation α) : Prop :=
  ∀ ⦃p p' a⦄, p.NotesAtoms → step p = .ok (a, p') → p'.NotesAtoms

namespace KeepsAtoms

variable {α β : Type}

theorem pure (a : α) : KeepsAtoms (Pure.pure a : Evaluation α) := by
  intro p p' _ hp hrun
  cases hrun
  exact hp

theorem fail (fault : Fault) : KeepsAtoms (Evaluation.fail fault : Evaluation α) := by
  intro p p' _ _ hrun
  cases hrun

theorem get : KeepsAtoms (MonadState.get : Evaluation Progress) := by
  intro p p' _ hp hrun
  cases hrun
  exact hp

theorem modify {change : Progress → Progress} (h : ∀ p : Progress, p.NotesAtoms → (change p).NotesAtoms) :
    KeepsAtoms (modify change : Evaluation PUnit) := by
  intro p p' _ hp hrun
  cases hrun
  exact h p hp

theorem bind {step : Evaluation α} {next : α → Evaluation β} (h : KeepsAtoms step) (hnext : ∀ a, KeepsAtoms (next a)) :
    KeepsAtoms (step >>= next) := by
  intro p p' b hp hrun
  obtain ⟨⟨a, between⟩, hstep, hrun⟩ := result_bind_eq_ok hrun
  exact hnext a (h hp hstep) hrun

theorem ite {c : Prop} [Decidable c] {step other : Evaluation α} (h : KeepsAtoms step) (hother : KeepsAtoms other) :
    KeepsAtoms (if c then step else other) := by
  split
  · exact h
  · exact hother

theorem forM {items : List α} {step : α → Evaluation PUnit} (h : ∀ item, KeepsAtoms (step item)) :
    KeepsAtoms (items.forM step) := by
  induction items with
  | nil => exact pure _
  | cons item items ih => exact bind (h item) fun _ => ih

/-- A step that depends on a result. -/
theorem ofExcept {result : Except LoadError α} {next : α → Evaluation β}
    (h : ∀ a, result = .ok a → KeepsAtoms (next a)) : KeepsAtoms (Evaluation.ofExcept result >>= next) := by
  intro p p' b hp hrun
  cases result with
  | error e => cases hrun
  | ok a => exact h a rfl hp hrun

end KeepsAtoms

section Parts

variable {inside : Node → Evaluation Unit} (hinside : ∀ node, KeepsAtoms (inside node))
include hinside

theorem visitEntry_keepsAtoms (start : Mark) (entry : Node × Node) : KeepsAtoms (visitEntry inside start entry) := by
  apply KeepsAtoms.bind (hinside entry.1)
  intro _
  apply KeepsAtoms.bind .get
  intro p
  exact .ite (.bind (.fail _) fun _ => hinside entry.2) (hinside entry.2)

theorem visitEntries_keepsAtoms (node : Node) : KeepsAtoms (visitEntries inside node) := by
  unfold visitEntries
  cases Node.mergedEntries node.mark node.entries with
  | error fault => exact .fail fault
  | ok merged =>
    have hmerge : KeepsAtoms (modify (·.merge node)) := .modify fun p hp => hp
    exact .bind hmerge fun _ => .forM (visitEntry_keepsAtoms hinside node.mark)

theorem visitPairs_keepsAtoms (context : Context) (node : Node) : KeepsAtoms (visitPairs inside context node) := by
  cases node with
  | sequence number tag items mark =>
    apply KeepsAtoms.forM
    intro item
    apply KeepsAtoms.bind .get
    intro p
    cases pairEntry p context mark item with
    | error fault => exact .fail fault
    | ok entry => exact .bind (hinside entry.1) fun _ => hinside entry.2
  | _ => exact .fail _

theorem visitItems_keepsAtoms (node : Node) : KeepsAtoms (visitItems inside node) := by
  cases node with
  | sequence number tag items mark => exact .forM hinside
  | _ => exact .fail _

theorem visitMapping_keepsAtoms (node : Node) : KeepsAtoms (visitMapping inside node) := by
  cases node with
  | mapping number tag entries mark => exact visitEntries_keepsAtoms hinside _
  | _ => exact .fail _

theorem visitShort_keepsAtoms (node : Node) : KeepsAtoms (visitShort inside node) := by
  cases node with
  | scalar number tag text mark => exact .pure _
  | sequence number tag items mark => exact .forM hinside
  | mapping number tag entries mark => exact visitEntries_keepsAtoms hinside _
  | enclosing number target tag kind mark => exact .pure _

theorem openCollection_keepsAtoms (node : Node) : KeepsAtoms (openCollection inside node) := by
  unfold openCollection
  split
  · exact visitItems_keepsAtoms hinside node
  · exact visitMapping_keepsAtoms hinside node
  · exact visitMapping_keepsAtoms hinside node
  · exact visitPairs_keepsAtoms hinside _ node
  · exact visitPairs_keepsAtoms hinside _ node
  · exact .fail _

end Parts

theorem meetNone_keepsAtoms (node : Node) : KeepsAtoms (modify (·.meet node none)) :=
  .modify fun _ hp => hp.meet node nofun

section Nodes

variable {inside : Bool → Node → Evaluation Unit} (hinside : ∀ atOnce node, KeepsAtoms (inside atOnce node))
include hinside

theorem visitContent_keepsAtoms (atOnce : Bool) (p : Progress) (node : Node) :
    KeepsAtoms (visitContent inside atOnce p node) := by
  unfold visitContent
  cases p.tagOf node with
  | other text => exact .fail _
  | short name => exact .bind (visitShort_keepsAtoms (hinside true) node) fun _ => meetNone_keepsAtoms node
  | core tag =>
    apply KeepsAtoms.ite
    · apply KeepsAtoms.ofExcept
      intro value hvalue
      apply KeepsAtoms.modify
      intro p hp
      apply hp.meet
      rintro _ ⟨⟩
      exact isAtom_scalarOf hvalue
    · -- A collection is noted without a value; its value is put together when all its parts are noted.
      apply KeepsAtoms.ite _ (.fail _)
      apply KeepsAtoms.ite
      · exact .bind (openCollection_keepsAtoms (hinside true) node) fun _ => meetNone_keepsAtoms node
      · exact .modify fun p hp => hp.meet node nofun

/-- A node that is met is noted with the value of a scalar, or with none. -/
theorem visitWith_keepsAtoms (atOnce : Bool) (node : Node) : KeepsAtoms (visitWith inside atOnce node) := by
  apply KeepsAtoms.bind .get
  intro p
  apply KeepsAtoms.ite (.pure _)
  cases node.target? with
  | some target => exact .ite (meetNone_keepsAtoms node) (.fail _)
  | none => exact visitContent_keepsAtoms hinside atOnce p node

end Nodes

theorem visit_keepsAtoms (bound : Nat) (atOnce : Bool) (node : Node) : KeepsAtoms (visit bound atOnce node) := by
  induction bound generalizing atOnce node with
  | zero => exact .fail _
  | succ bound ih => exact visitWith_keepsAtoms ih atOnce node

theorem openWaiting_keepsAtoms (bound count : Nat) : KeepsAtoms (openWaiting bound count) := by
  induction count with
  | zero => exact .pure _
  | succ count ih =>
    apply KeepsAtoms.bind .get
    intro p
    cases p.waiting with
    | nil => exact .pure _
    | cons node others =>
      have htake : KeepsAtoms (modify fun p => { p with waiting := others }) := .modify fun p hp => hp
      exact .bind htake fun _ => .bind (openCollection_keepsAtoms (visit_keepsAtoms bound false) node) fun _ => ih

end Evaluation

/-- What is noted of a document are the values of its scalars. -/
theorem evaluate_notesAtoms {root : Node} {p : Progress} (h : evaluate root = .ok p) : p.NotesAtoms := by
  obtain ⟨⟨_, between⟩, hvisit, h⟩ := result_bind_eq_ok h
  obtain ⟨⟨_, after⟩, hopen, h⟩ := result_bind_eq_ok h
  cases h
  have hstart : Progress.start.NotesAtoms := nofun
  exact Evaluation.openWaiting_keepsAtoms _ _ (Evaluation.visit_keepsAtoms _ _ _ hstart hvisit) hopen

theorem Progress.NotesAtoms.isAtom {p : Progress} (h : p.NotesAtoms) {node : Node} {value : Value}
    (hvalue : p.value? node = some value) : value.IsAtom := by
  obtain ⟨before, behind, hmet, -⟩ := List.lookup_eq_some_iff.mp (Option.join_eq_some_iff.mp hvalue)
  apply h node.number
  rw [hmet]
  exact List.mem_append_right _ List.mem_cons_self

/-! ## Collections -/

/-- The parts of the name of an attribute are texts. -/
theorem isAtom_splitAtPoint {text : String} {part : Value} (h : part ∈ splitAtPoint text) : part.IsAtom := by
  simp only [splitAtPoint] at h
  split at h
  · rw [List.mem_singleton.mp h]
    trivial
  · rcases List.mem_cons.mp h with rfl | h
    · trivial
    · rw [List.mem_singleton.mp h]
      trivial

theorem shortForm_hasDistinctKeys (name : String) {value : Value} (h : value.HasDistinctKeys) :
    (shortForm name value).HasDistinctKeys := by
  have hsingle : ∀ {key value : Value}, value.HasDistinctKeys → (Value.map [(key, value)]).HasDistinctKeys :=
    fun hvalue => Value.hasDistinctKeys_map.mpr ⟨List.pairwise_singleton _ _, List.forall_mem_singleton.mpr hvalue⟩
  unfold shortForm
  split
  · exact hsingle h
  · apply hsingle
    split
    · split
      · exact Value.hasDistinctKeys_list.mpr fun part hpart => (isAtom_splitAtPoint hpart).hasDistinctKeys
      · exact h
    · exact h

namespace Value

section Parts

variable {inside : Node → Value} (hinside : ∀ node, (inside node).HasDistinctKeys)
include hinside

theorem mergedValues_hasDistinctKeys (node : Node) :
    ∀ entry ∈ mergedValues inside node, entry.1.HasDistinctKeys ∧ entry.2.HasDistinctKeys := by
  intro entry hentry
  unfold mergedValues at hentry
  split at hentry
  · obtain ⟨source, -, rfl⟩ := List.mem_map.mp hentry
    exact ⟨hinside source.1, hinside source.2⟩
  · cases hentry

theorem ofForm_hasDistinctKeys (node : Node) : (ofForm inside node).HasDistinctKeys := by
  cases node with
  | scalar number tag text mark => exact IsAtom.hasDistinctKeys trivial
  | sequence number tag items mark =>
    apply hasDistinctKeys_list.mpr
    exact List.forall_mem_map.mpr fun item _ => hinside item
  | mapping number tag entries mark =>
    exact hasDistinctKeys_ofEntries fun entry hentry => (mergedValues_hasDistinctKeys hinside _ entry hentry).2
  | enclosing number target tag kind mark => exact IsAtom.hasDistinctKeys trivial

theorem pairs_hasDistinctKeys (items : List Node) : (list (items.flatMap (pairsOf inside))).HasDistinctKeys := by
  apply hasDistinctKeys_list.mpr
  intro pair hpair
  obtain ⟨item, -, hpair⟩ := List.mem_flatMap.mp hpair
  obtain ⟨entry, hentry, rfl⟩ := List.mem_map.mp hpair
  obtain ⟨hkey, hvalue⟩ := mergedValues_hasDistinctKeys hinside item entry hentry
  apply hasDistinctKeys_tuple.mpr
  exact List.forall_mem_cons.mpr ⟨hkey, List.forall_mem_singleton.mpr hvalue⟩

theorem ofCollection_hasDistinctKeys (node : Node) : (ofCollection inside node).HasDistinctKeys := by
  have hform := ofForm_hasDistinctKeys hinside node
  unfold ofCollection
  split
  · exact shortForm_hasDistinctKeys _ hform
  · exact IsAtom.hasDistinctKeys trivial
  · exact pairs_hasDistinctKeys hinside _
  · exact pairs_hasDistinctKeys hinside _
  · exact hform

end Parts

theorem assemble_hasDistinctKeys (root : Node) {p : Progress} (hp : p.NotesAtoms) (bound : Nat) (node : Node) :
    (assemble root p bound node).HasDistinctKeys := by
  induction bound generalizing node with
  | zero => exact IsAtom.hasDistinctKeys trivial
  | succ bound ih =>
    rw [assemble]
    cases node.target? with
    | some target => exact IsAtom.hasDistinctKeys trivial
    | none =>
      cases hvalue : p.value? node with
      | some value => exact (hp.isAtom hvalue).hasDistinctKeys
      | none => exact ofCollection_hasDistinctKeys ih node

theorem ofNodeIn_hasDistinctKeys {root node : Node} {value : Value} (h : ofNodeIn root node = .ok value) :
    value.HasDistinctKeys := by
  obtain ⟨p, hevaluate, h⟩ := result_bind_eq_ok h
  cases h
  exact assemble_hasDistinctKeys root (evaluate_notesAtoms hevaluate) _ _

/-- What stands where a collection stands in itself has distinct keys as well. -/
theorem opened_hasDistinctKeys {value : Value} (h : value.HasDistinctKeys) : value.opened.HasDistinctKeys := by
  cases value with
  | enclosing root target =>
    rw [opened]
    cases hfound : (nodeNumbered? root target).bind fun node => (ofNodeIn root node).toOption with
    | none => exact IsAtom.hasDistinctKeys trivial
    | some value =>
      obtain ⟨node, -, hvalue⟩ := Option.bind_eq_some_iff.mp hfound
      exact ofNodeIn_hasDistinctKeys (toOption_eq_some.mp hvalue)
  | _ => exact h

end Value

/-- **The mappings of a loaded value have distinct keys**, at every depth. -/
theorem load_hasDistinctKeys {text : String} {value : Value} (h : load text = .ok value) : value.HasDistinctKeys := by
  obtain ⟨_, -, h⟩ := result_bind_eq_ok h
  obtain ⟨root?, -, h⟩ := result_bind_eq_ok h
  cases root? with
  | none =>
    cases h
    exact Value.IsAtom.hasDistinctKeys trivial
  | some root => exact Value.ofNodeIn_hasDistinctKeys h

end ResolverWiring.Yaml
