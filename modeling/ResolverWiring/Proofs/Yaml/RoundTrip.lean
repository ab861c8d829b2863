import ResolverWiring.Proofs.Yaml.Denoting
import ResolverWiring.Proofs.Yaml.Integers
import ResolverWiring.Yaml.Load

/-!
# `Proofs.Yaml.RoundTrip` — written values are loaded again

A mapping of null, truth values, integers, texts, lists, tuples and mappings (`Value.IsData`) is written as a text from
which it is loaded again, with lists for tuples and texts for keys (`load_print`). This needs that every text of it is
kept (`PrintTree.keeps`), which is so unless it is nested deeply.

The proof goes through the tree that is written. A plain value is drawn by a tree of data (`PrintTree.Draws`), whose
text is lexed, parsed and denotes the value.
-/

namespace ResolverWiring.Yaml

open Decimal Text

/-! ## Values that are data -/

namespace Value

/-- A key: null, a truth value, an integer or a text that is not too long. -/
def IsKey : Value → Prop
  | null => True
  | bool _ => True
  | int _ => True
  | string text => text.length ≤ PrintTree.maxKeyText
  | _ => False

mutual

/-- A value that is built of null, truth values, integers, texts, lists, tuples and mappings. -/
def IsData : Value → Prop
  | null => True
  | bool _ => True
  | int _ => True
  | string _ => True
  | list items => ItemsAreData items
  | tuple items => ItemsAreData items
  | map entries => EntriesAreData entries
  | _ => False

/-- Items that are so built. -/
def ItemsAreData : List Value → Prop
  | [] => True
  | item :: others => IsData item ∧ ItemsAreData others

/-- Entries of keys and values that are so built. -/
def EntriesAreData : List (Value × Value) → Prop
  | [] => True
  | (key, value) :: others => IsKey key ∧ IsData value ∧ EntriesAreData others

end

/-! ## Plain values -/

/-- The text of a key is short, or all its characters are visible. -/
def IsPlainKey (key : Value) : Prop :=
  ∃ name, key = string name ∧ (name.length ≤ PrintTree.maxKeyText ∨ Visible name.toList)

mutual

/-- A value that is built of null, truth values, integers, texts, lists and mappings with different texts as keys. -/
def IsPlain : Value → Prop
  | null => True
  | bool _ => True
  | int _ => True
  | string _ => True
  | list items => ItemsArePlain items
  | map entries => DistinctKeys entries ∧ EntriesArePlain entries
  | _ => False

/-- Items that are so built. -/
def ItemsArePlain : List Value → Prop
  | [] => True
  | item :: others => IsPlain item ∧ ItemsArePlain others

/-- Entries of texts and values that are so built. -/
def EntriesArePlain : List (Value × Value) → Prop
  | [] => True
  | (key, value) :: others => IsPlainKey key ∧ IsPlain value ∧ EntriesArePlain others

end

theorem visible_integer (i : Int) : Visible (toString i).toList := by
  obtain ⟨sign, hsign, htext, -⟩ := toList_integer i
  rw [htext]
  exact visible_numeral hsign (isNumeral_toDigits _)

/-- The text of a key is one as plain values have. -/
theorem IsKey.keyText {key : Value} (h : key.IsKey) : (string key.keyText).IsPlainKey := by
  match key with
  | null => exact ⟨_, rfl, .inr (List.all_eq_true.mp (by decide))⟩
  | bool true => exact ⟨_, rfl, .inr (List.all_eq_true.mp (by decide))⟩
  | bool false => exact ⟨_, rfl, .inr (List.all_eq_true.mp (by decide))⟩
  | int i => exact ⟨_, rfl, .inr (visible_integer i)⟩
  | string text => exact ⟨text, rfl, .inl h⟩

variable {entries : List (Value × Value)} {value : Value}

theorem insertText_eq (h : EntriesArePlain entries) (name : String) (value : Value) :
    insertText entries name value = insert entries (string name) value := by
  induction entries with
  | nil => rfl
  | cons entry others ih =>
    obtain ⟨key, old⟩ := entry
    obtain ⟨⟨text, rfl, -⟩, -, hothers⟩ := h
    have htext : (string text).keyText = text := rfl
    by_cases hname : text = name
    · rw [insertText, insert, if_pos (htext.trans hname), if_pos (sameKey_string.mpr (congrArg string hname))]
    · have hother : ¬(string text).sameKey (string name) = true := fun hsame =>
        hname (string.inj (sameKey_string.mp hsame))
      rw [insertText, insert, htext, if_neg hname, if_neg hother, ih hothers]

theorem EntriesArePlain.insert (h : EntriesArePlain entries) {key : Value} (hkey : key.IsPlainKey) (hvalue : value.IsPlain) :
    EntriesArePlain (insert entries key value) := by
  induction entries with
  | nil => exact ⟨hkey, hvalue, trivial⟩
  | cons entry others ih =>
    obtain ⟨first, old⟩ := entry
    obtain ⟨hfirst, hold, hothers⟩ := h
    unfold Value.insert
    split
    · exact ⟨hfirst, hvalue, hothers⟩
    · exact ⟨hfirst, hold, ih hothers⟩

mutual

/-- A value that is data is plain once it is made so. -/
theorem isPlain_plain : ∀ {value : Value}, value.IsData → value.plain.IsPlain
  | null, _ => trivial
  | bool _, _ => trivial
  | int _, _ => trivial
  | string _, _ => trivial
  | list _, h => itemsArePlain_plainItems h
  | tuple _, h => itemsArePlain_plainItems h
  | map _, h => entriesArePlain_plainEntries List.Pairwise.nil trivial h

theorem itemsArePlain_plainItems : ∀ {items : List Value}, ItemsAreData items → ItemsArePlain (plainItems items)
  | [], _ => trivial
  | _ :: _, h => ⟨isPlain_plain h.1, itemsArePlain_plainItems h.2⟩

theorem entriesArePlain_plainEntries {done : List (Value × Value)} (hdistinct : DistinctKeys done)
    (hdone : EntriesArePlain done) : ∀ {entries : List (Value × Value)}, EntriesAreData entries →
    DistinctKeys (plainEntries done entries) ∧ EntriesArePlain (plainEntries done entries)
  | [], _ => ⟨hdistinct, hdone⟩
  | (key, value) :: _, h => by
    obtain ⟨hkey, hvalue, hothers⟩ := h
    have hplain := isPlain_plain hvalue
    rw [plainEntries, insertText_eq hdone]
    exact entriesArePlain_plainEntries (hdistinct.insert _ _) (hdone.insert hkey.keyText hplain) hothers

end

end Value

/-! ## Trees of plain values -/

namespace PrintTree

/-- Whether a tree is the one that is written of a value, whatever is shared around it, and its nodes denote the value. -/
structure Draws (tree : PrintTree) (value : Value) : Prop where
  build : ∀ shared, build shared value = pure tree
  isData : tree.IsData
  denotes : ∀ {node : Node}, node.StandsFor tree → node.Denotes value

/-- Whether trees are those of items. -/
structure DrawsItems (trees : List PrintTree) (items : List Value) : Prop where
  build : ∀ shared, buildItems shared items = pure trees
  areData : ItemsAreData trees
  denote : ∀ {nodes : List Node}, Node.ItemsStandFor nodes trees → Node.ItemsDenote nodes items

/-- Whether pairs of trees are those of entries. -/
structure DrawsEntries (trees : List (PrintTree × PrintTree)) (entries : List (Value × Value)) : Prop where
  build : ∀ shared, buildEntries shared entries = pure trees
  areData : EntriesAreData trees
  denote : ∀ {nodes : List (Node × Node)}, Node.EntriesStandFor nodes trees → Node.EntriesDenote nodes entries

variable {value : Value}

/-- A scalar without an anchor draws the value that its text has. -/
theorem draws_scalar {tag : CoreTag} {text : List Char} (hbuild : ∀ shared, build shared value = pure (.scalar none tag text))
    (hdata : ScalarIsData tag text) (hscalar : tag.isScalar = true)
    (hvalue : ∀ number mark, scalarValue tag number text mark = .ok value) : (PrintTree.scalar none tag text).Draws value := by
  refine ⟨hbuild, ⟨rfl, hdata⟩, fun h => ?_⟩
  obtain ⟨number, mark, rfl⟩ := h.eq_scalar
  exact ⟨tag, rfl, hscalar, hvalue number mark⟩

theorem draws_string (text : String) : (PrintTree.scalar none .string text.toList).Draws (.string text) := by
  refine draws_scalar (fun _ => rfl) (.inr rfl) rfl fun number mark => ?_
  show Except.ok (Value.string (String.ofList text.toList)) = _
  rw [String.ofList_toList]

/-- An integer that can be written. -/
theorem draws_int {i : Int} (h : Value.integerFits i = true) : (ofText .int (toString i)).Draws (.int i) := by
  -- an integer fits if its digits are not too many to be read
  have hlength : (Nat.toDigits 10 i.natAbs).length ≤ maxDigits := by
    unfold Value.integerFits writeInteger at h
    split at h
    · cases h
    · rename_i hshort
      have hdigits : (toString i.natAbs).length = (Nat.toDigits 10 i.natAbs).length := String.length_ofList
      omega
  have hnonempty : (toString i).toList ≠ [] := by
    obtain ⟨sign, hsign, htext, -⟩ := toList_integer i
    obtain ⟨c, cs, hcs, -⟩ := exists_front_numeral hsign (isNumeral_toDigits i.natAbs)
    rw [htext, hcs]
    exact List.cons_ne_nil _ _
  refine draws_scalar (fun _ => rfl) (.inl ⟨hnonempty, styleOf_integer i⟩) rfl fun number mark => ?_
  show ((readIntScalar (toString i).toList).map Value.int).mapError _ = _
  rw [readIntScalar_integer hlength]
  rfl

/-- The node of a scalar has its tag. -/
theorem tag_of_standsFor {node : Node} {anchor? : Option AnchorNumber} {tag : CoreTag} {text : List Char}
    (h : node.StandsFor (.scalar anchor? tag text)) : node.tag = .core tag := by
  obtain ⟨number, mark, rfl⟩ := h.eq_scalar
  rfl

mutual

/-- A plain value whose integers can be written has a tree. -/
theorem exists_draws : ∀ {value : Value}, value.IsPlain → value.fits = true → ∃ tree : PrintTree, tree.Draws value
  | .null, _, _ => ⟨_, draws_scalar (fun _ => rfl) (.inl ⟨by decide, by decide⟩) rfl fun _ _ => rfl⟩
  | .bool true, _, _ => ⟨_, draws_scalar (fun _ => rfl) (.inl ⟨by decide, by decide⟩) rfl fun _ _ => rfl⟩
  | .bool false, _, _ => ⟨_, draws_scalar (fun _ => rfl) (.inl ⟨by decide, by decide⟩) rfl fun _ _ => rfl⟩
  | .int _, _, hfits => ⟨_, draws_int hfits⟩
  | .string text, _, _ => ⟨_, draws_string text⟩
  | .list items, hplain, hfits => by
    obtain ⟨trees, htrees⟩ := exists_drawsItems hplain hfits
    refine ⟨.sequence trees, fun shared => ?_, htrees.areData, fun h => ?_⟩
    · rw [PrintTree.build, htrees.build]
      rfl
    · obtain ⟨number, nodes, mark, rfl, hnodes⟩ := h.eq_sequence
      exact ⟨rfl, items, rfl, htrees.denote hnodes⟩
  | .map entries, hplain, hfits => by
    obtain ⟨hdistinct, hplain⟩ := hplain
    obtain ⟨trees, htrees⟩ := exists_drawsEntries hplain hfits
    refine ⟨.mapping none false trees, fun shared => ?_, ⟨rfl, rfl, htrees.areData⟩, fun h => ?_⟩
    · rw [PrintTree.build, htrees.build]
      rfl
    · obtain ⟨number, nodes, mark, rfl, hnodes⟩ := h.eq_mapping
      exact ⟨rfl, entries, rfl, hdistinct, htrees.denote hnodes⟩

theorem exists_drawsItems : ∀ {items : List Value}, Value.ItemsArePlain items → Value.itemsFit items = true →
    ∃ trees, DrawsItems trees items
  | [], _, _ => by
    refine ⟨[], fun _ => rfl, trivial, fun h => ?_⟩
    rw [h.eq_nil]
    rfl
  | item :: others, hplain, hfits => by
    obtain ⟨hitemFits, hothersFit⟩ := Bool.and_eq_true_iff.mp hfits
    obtain ⟨tree, htree⟩ := exists_draws hplain.1 hitemFits
    obtain ⟨trees, htrees⟩ := exists_drawsItems hplain.2 hothersFit
    refine ⟨tree :: trees, fun shared => ?_, ⟨htree.isData, htrees.areData⟩, fun h => ?_⟩
    · rw [PrintTree.buildItems, htree.build, htrees.build]
      rfl
    · obtain ⟨node, behind, rfl, hnode, hbehind⟩ := h.eq_cons
      exact ⟨_, _, rfl, htree.denotes hnode, htrees.denote hbehind⟩

theorem exists_drawsEntries : ∀ {entries : List (Value × Value)}, Value.EntriesArePlain entries →
    Value.entriesFit entries = true → ∃ trees, DrawsEntries trees entries
  | [], _, _ => by
    refine ⟨[], fun _ => rfl, trivial, fun h => ?_⟩
    rw [h.eq_nil]
    rfl
  | (key, value) :: others, hplain, hfits => by
    obtain ⟨⟨name, rfl, hname⟩, hvaluePlain, hothersPlain⟩ := hplain
    obtain ⟨hfits, hothersFit⟩ := Bool.and_eq_true_iff.mp hfits
    obtain ⟨-, hvalueFits⟩ := Bool.and_eq_true_iff.mp hfits
    have hkey := draws_string name
    obtain ⟨tree, htree⟩ := exists_draws hvaluePlain hvalueFits
    obtain ⟨trees, htrees⟩ := exists_drawsEntries hothersPlain hothersFit
    refine ⟨(.scalar none .string name.toList, tree) :: trees, fun shared => ?_,
      ⟨⟨_, rfl, hname⟩, htree.isData, htrees.areData⟩, fun h => ?_⟩
    · rw [PrintTree.buildEntries, hkey.build, htree.build, htrees.build]
      rfl
    · obtain ⟨keyNode, valueNode, behind, rfl, hkeyNode, hvalueNode, hbehind⟩ := h.eq_cons
      exact ⟨name, _, _, rfl, tag_of_standsFor hkeyNode, hkey.denotes hkeyNode, htree.denotes hvalueNode,
        htrees.denote hbehind⟩

end

theorem Draws.ofValue {tree : PrintTree} (h : tree.Draws value) : ofValue value = tree := by
  rw [PrintTree.ofValue, h.build]
  rfl

end PrintTree

/-! ## Loading -/

/-- A written text holds no character that a text must not hold. -/
theorem checkCharacters_written {text : List Char} (h : Written text) : checkCharacters text = .ok () := by
  -- a line end is the only written character that is not visible
  have hnone : text.dropWhile isAllowed = [] := by
    refine List.dropWhile_eq_nil_iff.mpr fun c hc => ?_
    rcases Bool.or_eq_true_iff.mp (h c hc) with hvisible | hfeed
    · obtain ⟨hlow, hhigh⟩ := isVisible_iff.mp hvisible
      simp [isAllowed, hlow, hhigh]
    · rw [eq_of_beq hfeed]
      decide
  rw [checkCharacters, hnone]

theorem load_ofList (text : List Char) : load (String.ofList text) = (do
    checkCharacters text
    match ← parseDocument (lex text) with
    | none => return .null
    | some node => Value.ofNode node) := by
  show (fun cs => (do
    checkCharacters cs
    match ← parseDocument (lex cs) with
    | none => return .null
    | some node => Value.ofNode node : Except LoadError Value)) (String.ofList text).toList = _
  rw [String.toList_ofList]

/-- The text of a mapping that is drawn by a tree, all of whose texts are kept, is loaded as the mapping. -/
theorem load_writeDocument {tree : PrintTree} {entries : List (Value × Value)} (h : tree.Draws (.map entries))
    (hkeeps : tree.keeps = true) : load (String.ofList tree.writeDocument) = .ok (.map entries) := by
  have hmapping : ∃ trees, tree = .mapping none false trees := ⟨_, h.ofValue.symm⟩
  obtain ⟨trees, rfl⟩ := hmapping
  have hdata : PrintTree.EntriesAreData trees := h.isData.2.2
  have hcharacters := checkCharacters_written (PrintTree.written_writeDocument hdata)
  have hlex := PrintTree.lex_writeDocument hdata hkeeps
  obtain ⟨node, hparse, hstands, hnumbers⟩ := PrintTree.parseDocument_tokens h.isData hlex
  rw [load_ofList, hcharacters]
  show (parseDocument (lex (PrintTree.mapping none false trees).writeDocument) >>= _ : Except LoadError Value) = _
  rw [hparse]
  exact Value.ofNode_eq (h.denotes hstands) hnumbers

/-- A value whose integers can be written is written as its tree. -/
theorem print_of_fits {value : Value} (h : (value.keysFit && value.plain.fits) = true) :
    print value = .ok (String.ofList (PrintTree.ofValue value.plain).writeDocument) := if_pos h

/-- A mapping of data is loaded from its text as it was built, with lists for tuples and texts for keys, if every text
of it is kept. Only an integer that is too long hinders it from being written. -/
theorem load_print {entries : List (Value × Value)} (hdata : (Value.map entries).IsData)
    (hkeeps : (PrintTree.ofValue (Value.map entries).plain).keeps = true) :
    ((Value.map entries).keysFit && (Value.map entries).plain.fits) = false
        ∧ print (.map entries) = .error ⟨none⟩
      ∨ ∃ text, print (.map entries) = .ok text ∧ load text = .ok (Value.map entries).plain := by
  by_cases hfits : ((Value.map entries).keysFit && (Value.map entries).plain.fits) = true
  · right
    obtain ⟨tree, htree⟩ := PrintTree.exists_draws (Value.isPlain_plain hdata) (Bool.and_eq_true_iff.mp hfits).2
    rw [htree.ofValue] at hkeeps
    refine ⟨String.ofList tree.writeDocument, ?_, load_writeDocument htree hkeeps⟩
    rw [print_of_fits hfits, htree.ofValue]
  · exact .inl ⟨eq_false_of_ne_true hfits, if_neg hfits⟩

/-- A mapping with a tuple, a number as a key, and texts that need quotes. -/
theorem load_print_settings :
    (Value.map [(.string "a: b", .tuple [.int (-12), .bool true, .string "yes"]), (.int 7, .string "é\n")]).IsData
      ∧ (PrintTree.ofValue (Value.map [(.string "a: b", .tuple [.int (-12), .bool true, .string "yes"]),
        (.int 7, .string "é\n")]).plain).keeps = true
      ∧ ∃ text, print (.map [(.string "a: b", .tuple [.int (-12), .bool true, .string "yes"]), (.int 7, .string "é\n")])
          = .ok text
        ∧ load text = .ok (.map [(.string "a: b", .list [.int (-12), .bool true, .string "yes"]),
          (.string "7", .string "é\n")]) := by
  have hdata : (Value.map [(.string "a: b", .tuple [.int (-12), .bool true, .string "yes"]),
      (.int 7, .string "é\n")]).IsData := by
    simp [Value.IsData, Value.EntriesAreData, Value.ItemsAreData, Value.IsKey, PrintTree.maxKeyText]
    decide
  have hkeeps : (PrintTree.ofValue (Value.map [(.string "a: b", .tuple [.int (-12), .bool true, .string "yes"]),
      (.int 7, .string "é\n")]).plain).keeps = true := by
    decide +kernel
  refine ⟨hdata, hkeeps, (load_print hdata hkeeps).resolve_left fun h => ?_⟩
  exact absurd h.1 (by decide +kernel)

/-! ## A text that is not kept -/

namespace Value

/-- A value inside so many lists, each with nothing else in it. -/
def nest : Nat → Value → Value
  | 0, value => value
  | depth + 1, value => list [nest depth value]

/-- The text inside so many lists and mappings, each with nothing else in it. -/
def textInside : Nat → Value → Option String
  | 0, string text => some text
  | depth + 1, list [value] => textInside depth value
  | depth + 1, map [(_, value)] => textInside depth value
  | _, _ => none

end Value

/-- Inside forty lists a text is folded where lines are always too long. It is folded twice between an escaped
character and a space, and the backslash of one fold escapes that of the other. -/
theorem load_print_folded : (Value.map [(.string "k", .nest 40 (.string "aé b c"))]).IsData
    ∧ ∃ text, print (.map [(.string "k", .nest 40 (.string "aé b c"))]) = .ok text
      ∧ load text ≠ .ok (Value.map [(.string "k", .nest 40 (.string "aé b c"))]).plain := by
  have hdata : (Value.map [(.string "k", .nest 40 (.string "aé b c"))]).IsData := by
    simp [Value.nest, Value.IsData, Value.EntriesAreData, Value.ItemsAreData, Value.IsKey, PrintTree.maxKeyText]
    decide
  have hprint : print (.map [(.string "k", .nest 40 (.string "aé b c"))])
      = .ok (String.ofList (PrintTree.ofValue (Value.map [(.string "k", .nest 40 (.string "aé b c"))]).plain).writeDocument) :=
    print_of_fits (by decide +kernel)
  refine ⟨hdata, _, hprint, fun hload => ?_⟩
  rw [load_ofList] at hload
  -- the text is looked for where it was put: under a key, inside forty lists
  have hread := congrArg (fun result => result.toOption.bind (Value.textInside 41)) hload
  exact absurd hread (by decide +kernel)

end ResolverWiring.Yaml
