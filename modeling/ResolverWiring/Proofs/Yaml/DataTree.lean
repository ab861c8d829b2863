import ResolverWiring.Proofs.Yaml.Plain
import ResolverWiring.Yaml.Printer

/-!
# `Proofs.Yaml.DataTree` — trees of data

The trees of values that are built of null, truth values, integers, texts, lists and mappings with texts as keys:
no anchors, no sets, and scalars that are either texts or written without quotes (`PrintTree.IsData`).

A key that stays on its line is written with visible characters, and not too many of them (`visible_writeKey`), so it
is read as a key if it is short or all its characters are visible. What is written of such a tree has no character
that would have to be escaped (`written_writeDocument`).

`PrintTree.keeps` says whether every text of a tree that is folded in double quotes is kept.
-/

namespace ResolverWiring.Yaml

open Text

variable {tag : CoreTag} {text : List Char} {layout : Layout}

namespace PrintTree

/-! ## Data -/

/-- A scalar that is read as what it is: it is written without quotes, or it is a text. -/
def ScalarIsData (tag : CoreTag) (text : List Char) : Prop :=
  text ≠ [] ∧ styleOf tag text = .plain ∨ tag = .string

/-- A text of a key has at most this many characters, unless they are all visible. -/
def maxKeyText : Nat := 100

/-- A key: a text that is short, or all of whose characters are visible. -/
def IsKey (key : PrintTree) : Prop :=
  ∃ text, key = .scalar none .string text ∧ (text.length ≤ maxKeyText ∨ Visible text)

mutual

/-- A tree without anchors and sets, of scalars that are read as what they are. -/
def IsData : PrintTree → Prop
  | .alias _ => False
  | .scalar anchor? tag text => anchor? = none ∧ ScalarIsData tag text
  | .sequence items => ItemsAreData items
  | .mapping anchor? isSet entries => anchor? = none ∧ isSet = false ∧ EntriesAreData entries

/-- Items that are such trees. -/
def ItemsAreData : List PrintTree → Prop
  | [] => True
  | item :: others => IsData item ∧ ItemsAreData others

/-- Entries of a mapping with such trees behind keys. -/
def EntriesAreData : List (PrintTree × PrintTree) → Prop
  | [] => True
  | (key, value) :: others => IsKey key ∧ IsData value ∧ EntriesAreData others

end

/-! ## Texts that are kept -/

/-- Whether a scalar is kept: in double quotes it must not hold a space behind an escape where its lines are
indented beyond the line width. -/
def keepsScalar (layout : Layout) (tag : CoreTag) (text : List Char) : Bool :=
  !(styleOf tag text = .double && lineWidth ≤ layout.indent && hasSpaceBehindEscape text.tail)

mutual

/-- Whether the texts of a node are kept that stands behind a mark or key, inside a collection with an
indentation. -/
def keepsBehind (position : Position) (indent : Nat) : PrintTree → Bool
  | .alias _ => true
  | .scalar _ tag text => keepsScalar ⟨indent + indentStep, true⟩ tag text
  | .sequence items =>
    keepsItems (match position with | .behindMark => indent + indentStep | .behindKey => indent) items
  | .mapping _ _ entries => keepsEntries (indent + indentStep) entries

/-- Whether the texts of the items of a sequence are kept. -/
def keepsItems (indent : Nat) : List PrintTree → Bool
  | [] => true
  | item :: others => keepsBehind .behindMark indent item && keepsItems indent others

/-- Whether the texts of the entries of a mapping are kept. A key that stays on its line is not folded. -/
def keepsEntries (indent : Nat) : List (PrintTree × PrintTree) → Bool
  | [] => true
  | (key, value) :: others =>
    (if key.isSimpleKey then keepsBehind .behindKey indent value
      else keepsBehind .behindMark indent key && keepsBehind .behindMark indent value)
      && keepsEntries indent others

end

/-- Whether the texts of a mapping that is a whole document are kept. -/
def keeps : PrintTree → Bool
  | .mapping _ _ entries => keepsEntries 0 entries
  | _ => true

/-! ## Scalars -/

/-- The style of a scalar, with what the text is that allows it. -/
theorem ScalarIsData.style (h : ScalarIsData tag text) :
    styleOf tag text = .plain ∧ IsPlain text ∧ text ≠ [] ∧ resolve text = tag
      ∨ tag = .string ∧ (styleOf tag text = .single ∧ allowsSingle text = true ∨ styleOf tag text = .double) := by
  have hplain : styleOf tag text = .plain → resolve text = tag ∧ allowsPlain text = true := by
    intro hstyle
    unfold styleOf at hstyle
    split at hstyle
    · split at hstyle <;> cases hstyle
    · split at hstyle
      · rename_i hallows
        simpa using hallows
      · split at hstyle <;> cases hstyle
  by_cases hstyle : styleOf tag text = .plain
  · obtain ⟨hresolve, hallows⟩ := hplain hstyle
    refine .inl ⟨hstyle, isPlain_of_allowsPlain hallows, ?_, hresolve⟩
    rcases h with h | rfl
    · exact h.1
    · rintro rfl
      cases hresolve
  · have htag : tag = .string := h.resolve_left fun h => hstyle h.2
    subst htag
    refine .inr ⟨rfl, ?_⟩
    unfold styleOf at hstyle ⊢
    rw [if_neg (by decide)] at hstyle ⊢
    by_cases hallows : (resolve text = .string && allowsPlain text) = true
    · exact absurd (if_pos hallows) hstyle
    · rw [if_neg hallows]
      by_cases hsingle : allowsSingle text = true
      · rw [if_pos hsingle]
        exact .inl ⟨rfl, hsingle⟩
      · rw [if_neg hsingle]
        exact .inr rfl

theorem ScalarIsData.ne_binary (h : ScalarIsData tag text) : tag ≠ .binary := by
  rintro rfl
  rcases h.style with ⟨-, -, -, hresolve⟩ | ⟨htag, -⟩
  · rcases h with ⟨-, hstyle⟩ | htag
    · unfold styleOf at hstyle
      rw [if_pos rfl] at hstyle
      split at hstyle <;> cases hstyle
    · cases htag
  · cases htag

theorem writeInline_scalar (h : tag ≠ .binary) (layout : Layout) (column : Nat) (text : List Char) :
    writeInline layout column (.scalar none tag text) = writeScalar layout column tag text := by
  have hfront : (PrintTree.scalar none tag text).front = [] := by
    simp [front, properties, properties.anchorWord, h]
  rw [writeInline, hfront]
  rfl

theorem written_writeScalar (h : ScalarIsData tag text) (layout : Layout) (column : Nat) :
    Written (writeScalar layout column tag text) := by
  have hquoted : ∀ {quote : Char} {cs : List Char}, isVisible quote = true → Written cs →
      Written (quote :: (cs ++ [quote])) := by
    intro quote cs hquote hcs
    simp [isWritten_of_visible hquote, hcs]
  unfold writeScalar
  rcases h.style with ⟨hstyle, hplain, -⟩ | ⟨-, ⟨hstyle, hallows⟩ | hstyle⟩
  · rw [hstyle]
    exact written_writePlain _ _ hplain.visible
  · rw [hstyle]
    have htext : Written text := List.all_eq_true.mp (Bool.and_eq_true_iff.mp hallows).1
    exact hquoted rfl (written_writeSingle _ _ htext)
  · rw [hstyle]
    exact hquoted rfl (written_writeDouble _ _ _ _)

/-! ## Keys -/

theorem isSimpleKey_scalar {text : List Char} : (PrintTree.scalar none .string text).isSimpleKey = true
    ↔ text.length + 5 < keyLimit ∧ text ≠ [] ∧ isOneLine text = true := by
  have hword : (tagWord .string).length = 5 := by decide
  simp [isSimpleKey, hword, and_assoc, Nat.add_comm]

/-- A text in quotes whose characters are written one by one. -/
theorem visible_inQuotes {quote : Char} {f : Char → List Char} (hquote : isVisible quote = true)
    (h : ∀ c ∈ text, Visible (f c)) : Visible (quote :: (text.flatMap f ++ [quote])) := by
  have hinside : Visible (text.flatMap f) := by
    intro d hd
    obtain ⟨c, hc, hd⟩ := List.mem_flatMap.mp hd
    exact h c hc d hd
  simp [hquote, hinside]

theorem length_inQuotes_le (quote : Char) {f : Char → List Char} {bound : Nat} (h : ∀ c ∈ text, (f c).length ≤ bound) :
    (quote :: (text.flatMap f ++ [quote])).length ≤ text.length * bound + 2 := by
  have hinside := length_flatMap_le h
  simp only [List.length_cons, List.length_append, List.length_nil]
  omega

/-- A key that stays on its line is written with visible characters, and not too many of them. -/
theorem visible_writeKey (hline : isOneLine text = true) (hfolds : layout.folds = false) (column : Nat) :
    Visible (writeScalar layout column .string text)
      ∧ (writeScalar layout column .string text).length ≤ text.length * 10 + 2
      ∧ (Visible text → (writeScalar layout column .string text).length ≤ text.length * 2 + 2) := by
  have hdata : ScalarIsData .string text := .inr rfl
  unfold writeScalar
  rcases hdata.style with ⟨hstyle, hplain, -⟩ | ⟨-, ⟨hstyle, hallows⟩ | hstyle⟩
  · rw [hstyle]
    dsimp only
    rw [writePlain_unfolded hfolds]
    exact ⟨hplain.visible, by omega, fun _ => by omega⟩
  · rw [hstyle]
    have hfeed : '\n' ∉ text := fun hmem => absurd (List.all_eq_true.mp hline _ hmem) (by decide)
    have htext : Visible text := Written.visible (List.all_eq_true.mp (Bool.and_eq_true_iff.mp hallows).1) hfeed
    dsimp only
    -- a key is not folded, and on one line its text has no line end
    rw [writeSingle_unfolded hfolds _ _ htext]
    refine ⟨visible_inQuotes rfl fun c hc => ?_, length_inQuotes_le _ fun c _ => ?_,
      fun _ => length_inQuotes_le _ fun c _ => ?_⟩
    · split
      · simp [isVisible]
      · simpa using htext c hc
    · split <;> simp
    · split <;> simp
  · rw [hstyle]
    dsimp only
    rw [writeDouble_unfolded hfolds]
    refine ⟨visible_inQuotes rfl fun c _ => ?_, length_inQuotes_le _ fun c _ => ?_,
      fun htext => length_inQuotes_le _ fun c hc => ?_⟩
    · split
      · exact visible_escapeOf c
      · rename_i hescape
        simp only [needsEscape, Bool.or_eq_true, not_or, Bool.not_eq_true', Bool.not_eq_false] at hescape
        simpa using hescape.2
    · split
      · exact (length_escapeOf c).1
      · simp
    · split
      · rename_i hescape
        exact Nat.le_of_eq ((length_escapeOf c).2 hescape (htext c hc))
      · simp

/-! ## Nodes -/

section Nodes

variable {position : Position} (indent column : Nat)

theorem writeBehind_scalar (h : tag ≠ .binary) (text : List Char) :
    writeBehind position indent column (.scalar none tag text)
      = ' ' :: writeScalar ⟨indent + indentStep, true⟩ (column + 1) tag text := by
  rw [writeBehind, writeInline_scalar h]

theorem writeBehind_noItems : writeBehind position indent column (.sequence []) = [' ', '[', ']'] := rfl

theorem writeBehind_items {items : List PrintTree} (h : items ≠ []) :
    writeBehind position indent column (.sequence items) = match position with
      | .behindMark => ' ' :: stack (indent + indentStep) (writeItems (indent + indentStep) items)
      | .behindKey => newLine indent ++ stack indent (writeItems indent items) := by
  cases position <;> rw [writeBehind, if_neg (by simpa using h)]

theorem writeBehind_noEntries :
    writeBehind position indent column (.mapping none false []) = [' ', '\x7b', '\x7d'] := rfl

theorem writeBehind_entries {entries : List (PrintTree × PrintTree)} (h : entries ≠ []) :
    writeBehind position indent column (.mapping none false entries) = (match position with
      | .behindMark => [' ']
      | .behindKey => newLine (indent + indentStep))
        ++ stack (indent + indentStep) (writeEntries (indent + indentStep) entries) := by
  have hbare : (PrintTree.mapping none false []).properties = [] := rfl
  rw [writeBehind, if_neg (by simpa using h), hbare]
  cases position <;> rfl

end Nodes

/-! ## What is written -/

theorem written_stack {indent : Nat} {texts : List (List Char)} (h : ∀ text ∈ texts, Written text) :
    Written (stack indent texts) := by
  induction texts with
  | nil => exact written_nil
  | cons text others ih =>
    have htext := h text List.mem_cons_self
    cases others with
    | nil =>
      rw [stack, List.intercalate_singleton]
      exact htext
    | cons other others =>
      rw [stack, List.intercalate_cons_cons, ← stack]
      have hothers := ih fun text htext => h text (List.mem_cons_of_mem _ htext)
      exact written_append.mpr ⟨written_append.mpr ⟨htext, written_newLine indent⟩, hothers⟩

mutual

theorem written_writeBehind {position : Position} {indent column : Nat} : ∀ {tree : PrintTree}, tree.IsData →
    Written (writeBehind position indent column tree)
  | .alias _, h => h.elim
  | .scalar anchor? tag text, h => by
    obtain ⟨rfl, hscalar⟩ := h
    rw [writeBehind_scalar _ _ hscalar.ne_binary]
    exact written_cons.mpr ⟨by decide, written_writeScalar hscalar _ _⟩
  | .sequence items, h => by
    by_cases hitems : items = []
    · subst hitems
      rw [writeBehind_noItems]
      simp [isWritten, isVisible]
    · -- the lines are written alike wherever they are indented to
      have hwritten : ∀ indent, Written (stack indent (writeItems indent items)) :=
        fun indent => written_stack (written_writeItems h)
      rw [writeBehind_items _ _ hitems]
      cases position with
      | behindMark => exact written_cons.mpr ⟨by decide, hwritten _⟩
      | behindKey => exact written_append.mpr ⟨written_newLine _, hwritten _⟩
  | .mapping anchor? isSet entries, h => by
    obtain ⟨rfl, rfl, hdata⟩ := h
    by_cases hentries : entries = []
    · subst hentries
      rw [writeBehind_noEntries]
      simp [isWritten, isVisible]
    · rw [writeBehind_entries _ _ hentries]
      refine written_append.mpr ⟨?_, written_stack (written_writeEntries hdata)⟩
      cases position with
      | behindMark => simp [isWritten, isVisible]
      | behindKey => exact written_newLine _

theorem written_writeItems {indent : Nat} : ∀ {items : List PrintTree}, ItemsAreData items →
    ∀ text ∈ writeItems indent items, Written text
  | [], _ => nofun
  | item :: others, h => by
    rw [writeItems]
    refine List.forall_mem_cons.mpr ⟨?_, written_writeItems h.2⟩
    exact written_cons.mpr ⟨by decide, written_writeBehind h.1⟩

theorem written_writeEntries {indent : Nat} : ∀ {entries : List (PrintTree × PrintTree)}, EntriesAreData entries →
    ∀ text ∈ writeEntries indent entries, Written text
  | [], _ => nofun
  | (key, value) :: others, h => by
    obtain ⟨⟨text, rfl, -⟩, hvalue, hothers⟩ := h
    have hkey : ScalarIsData .string text := .inr rfl
    rw [writeEntries]
    refine List.forall_mem_cons.mpr ⟨?_, written_writeEntries hothers⟩
    split
    · rw [writeInline_scalar (by decide)]
      exact written_append.mpr ⟨written_writeScalar hkey _ _,
        written_cons.mpr ⟨by decide, written_writeBehind hvalue⟩⟩
    · rw [writeBehind_scalar _ _ (by decide)]
      simp [isWritten, isVisible, written_writeScalar hkey, written_writeBehind hvalue]

end

/-- A document that is a mapping. -/
theorem writeDocument_entries {entries : List (PrintTree × PrintTree)} (h : entries ≠ []) :
    (PrintTree.mapping none false entries).writeDocument = stack 0 (writeEntries 0 entries) ++ ['\n'] := by
  have hwords : (PrintTree.mapping none false []).properties.isEmpty = true := rfl
  rw [writeDocument, hwords, if_pos rfl, if_neg (by simpa using h), List.nil_append]

theorem written_writeDocument {entries : List (PrintTree × PrintTree)} (h : EntriesAreData entries) :
    Written (PrintTree.mapping none false entries).writeDocument := by
  by_cases hentries : entries = []
  · subst hentries
    show Written ['\x7b', '\x7d', '\n']
    simp [isWritten, isVisible]
  · rw [writeDocument_entries hentries]
    exact written_append.mpr ⟨written_stack (written_writeEntries h), written_newLine 0⟩

end PrintTree

end ResolverWiring.Yaml
