import ResolverWiring.Proofs.Yaml.PlainLoading

/-!
# `Proofs.Yaml.ShortTags` — short tags and their long forms

A node with a short tag is loaded as a mapping with one entry, whose key is the long form of the tag
(`Node.IsLoaded`). Its value is the text of a scalar as it stands, or the list or the mapping that a collection is by
itself. This holds of every node that can be reached from the root through sequences, mappings and nodes with short
tags, however deep they stand in each other, and whether or not an alias names them. An alias inside the collection that
it names stands for the collection. A document without short tags is loaded as if there were none (`load_shortTags`).

What a node is loaded as is put together from its parts. The evaluation has noted the right value for each scalar
(`evaluate_reached`) and none for a collection. How many levels are allowed below a node plays no role as long as
there are enough (`assemble_bound`).
-/

namespace ResolverWiring.Yaml

/-! ## Long forms -/

/-- The long form of the name of a short tag. -/
def longName (name : String) : String := if name = "Ref" then "Ref" else "Fn::" ++ name

/-- The parts of a text that is split at its first point, if it has one. -/
inductive IsSplit (text : List Char) : List Value → Prop where
  | whole : '.' ∉ text → IsSplit text [.string (String.ofList text)]
  | two (before behind : List Char) : text = before ++ '.' :: behind → '.' ∉ before →
    IsSplit text [.string (String.ofList before), .string (String.ofList behind)]

namespace Node

/-- What a node is by its form, if `valueOf` is what other nodes are: a scalar is its text as it stands, and a
collection is put together from its parts. -/
inductive IsForm (valueOf : Node → Value) : Node → Value → Prop where
  | scalar (number : NodeNumber) (tag : Tag) (text : List Char) (mark : Mark) :
    IsForm valueOf (.scalar number tag text mark) (.string (String.ofList text))
  | sequence (number : NodeNumber) (tag : Tag) (items : List Node) (mark : Mark) :
    IsForm valueOf (.sequence number tag items mark) (.list (items.map valueOf))
  | mapping (number : NodeNumber) (tag : Tag) (entries merged : List (Node × Node)) (mark : Mark) :
    mergedEntries mark entries = .ok merged → IsForm valueOf (.mapping number tag entries mark)
      (.map (Value.ofEntries (merged.map fun entry => (valueOf entry.1, valueOf entry.2))))

/-- The value of the one entry of the mapping that a node with a short tag of this name becomes: what the node is by
its form, but the text of an attribute is split. -/
inductive IsArgument (valueOf : Node → Value) (name : String) : Node → Value → Prop where
  | attribute (number : NodeNumber) (tag : Tag) (text : List Char) (mark : Mark) (parts : List Value) :
    name = "GetAtt" → IsSplit text parts → IsArgument valueOf name (.scalar number tag text mark) (.list parts)
  | form (node : Node) (value : Value) : ¬ (name = "GetAtt" ∧ node.kind = .scalar) → IsForm valueOf node value →
    IsArgument valueOf name node value

/-- Whether `valueOf` gives a node what it should be loaded as: with a short tag a mapping with one entry, as a sequence
or a mapping what it is by its form, and as any other scalar the value that its tag says. -/
structure IsLoaded (valueOf : Node → Value) (node : Node) : Prop where
  short : ∀ name, node.tag = .short name → ∃ argument, node.IsArgument valueOf name argument ∧
    valueOf node = .map [(.string (longName name), argument)]
  collection : node.tag = .core .sequence ∨ node.tag = .core .mapping → node.IsForm valueOf (valueOf node)
  scalar : ∀ number core text mark, node = .scalar number (.core core) text mark → core.isCollection = false →
    scalarValue core number text mark = .ok (valueOf node)

/-- What a node of a document is loaded as. -/
def valueIn (root node : Node) : Value :=
  match evaluate root with
  | .ok p => Value.assemble root p node.weight node
  | .error _ => .null

end Node

theorem isSplit_splitAtPoint (text : List Char) : IsSplit text (splitAtPoint (String.ofList text)) := by
  have hwhole := text.takeWhile_append_dropWhile (p := (· != '.'))
  have hbefore : '.' ∉ text.takeWhile (· != '.') := fun h => absurd (List.mem_takeWhile_imp h) (by decide)
  have hpoint := text.head?_dropWhile_not (· != '.')
  unfold splitAtPoint
  simp only [String.toList_ofList]
  split
  · rename_i hrest
    rw [hrest, List.append_nil] at hwhole
    exact .whole (hwhole ▸ hbefore)
  · rename_i point behind hrest
    rw [hrest] at hwhole hpoint
    obtain rfl : point = '.' := bne_eq_false_iff_eq.mp hpoint
    exact .two _ behind hwhole.symm hbefore

/-- A short tag makes a mapping with one entry. -/
theorem shortForm_eq {inside : Node → Value} {node : Node} {value : Value} (name : String)
    (h : node.IsForm inside value) : ∃ argument, node.IsArgument inside name argument ∧
      shortForm name value = .map [(.string (longName name), argument)] := by
  unfold shortForm longName
  by_cases href : name = "Ref"
  · rw [if_pos href, if_pos href]
    refine ⟨value, .form node value ?_ h, rfl⟩
    rintro ⟨hattribute, -⟩
    exact absurd (href.symm.trans hattribute) (by decide)
  rw [if_neg href, if_neg href]
  refine ⟨_, ?_, rfl⟩
  cases h with
  | scalar number tag text mark =>
    by_cases hattribute : name = "GetAtt"
    · simp only [if_pos hattribute]
      exact .attribute number tag text mark _ hattribute (isSplit_splitAtPoint text)
    · simp only [if_neg hattribute]
      exact .form _ _ (fun hboth => hattribute hboth.1) (.scalar number tag text mark)
  | sequence number tag items mark => exact .form _ _ nofun (.sequence number tag items mark)
  | mapping number tag entries merged mark hmerged =>
    exact .form _ _ nofun (.mapping number tag entries merged mark hmerged)

/-! ## Putting together -/

namespace Value

variable {p : Progress} {root node : Node} {bound : Nat}

/-- With enough levels, how many there are plays no role. -/
theorem assemble_bound (root : Node) (p : Progress) {bound other : Nat} (hbound : node.weight ≤ bound)
    (hother : node.weight ≤ other) : assemble root p bound node = assemble root p other node := by
  induction bound generalizing node other with
  | zero => exact absurd hbound (Nat.not_le_of_gt node.weight_pos)
  | succ bound ih =>
    obtain ⟨other, rfl⟩ := Nat.exists_eq_add_one_of_ne_zero (Nat.ne_zero_of_lt (node.weight_pos.trans_le hother))
    rw [assemble, assemble]
    have hinside : ∀ inner ∈ node.descendants, assemble root p bound inner = assemble root p other inner := by
      intro inner hinner
      have hweight := Node.weight_descendant hinner
      exact ih (by omega) (by omega)
    rw [ofCollection_congr hinside]

/-- A collection is put together from what its parts are put together as. -/
theorem assemble_eq_ofCollection (htarget : node.target? = none) (h : p.value? node = none) :
    assemble root p node.weight node = ofCollection (fun inner => assemble root p inner.weight inner) node := by
  obtain ⟨bound, hbound⟩ := Nat.exists_eq_add_one_of_ne_zero (Nat.ne_of_gt node.weight_pos)
  rw [hbound, assemble, htarget, h]
  apply ofCollection_congr
  intro inner hinner
  have hweight := Node.weight_descendant hinner
  exact assemble_bound root p (by omega) (Nat.le_refl _)

theorem assemble_of_value? {value : Value} (htarget : node.target? = none) (h : p.value? node = some value) :
    assemble root p node.weight node = value := by
  obtain ⟨bound, hbound⟩ := Nat.exists_eq_add_one_of_ne_zero (Nat.ne_of_gt node.weight_pos)
  rw [hbound, assemble, htarget, h]
  rfl

theorem assemble_of_target? {target : NodeNumber} (h : node.target? = some target) :
    assemble root p node.weight node = enclosing root target := by
  obtain ⟨bound, hbound⟩ := Nat.exists_eq_add_one_of_ne_zero (Nat.ne_of_gt node.weight_pos)
  rw [hbound, assemble, h]

/-- What is put together by the form of a node whose parts are known. -/
theorem isForm_ofForm {parts : List Node} (inside : Node → Value) (htarget : node.target? = none)
    (h : node.parts = .ok parts) : node.IsForm inside (ofForm inside node) := by
  cases node with
  | enclosing _ _ _ _ _ => cases htarget
  | scalar _ _ _ _ => exact .scalar _ _ _ _
  | sequence _ _ _ _ => exact .sequence _ _ _ _
  | mapping number tag entries mark =>
    obtain ⟨merged, hmerged, -⟩ := Node.parts_mapping_eq_ok h
    have hvalues : mergedValues inside (.mapping number tag entries mark)
        = merged.map fun entry => (inside entry.1, inside entry.2) := by
      unfold mergedValues
      simp only [Node.mark, Node.entries, hmerged]
    show Node.IsForm inside _ (map (ofEntries (mergedValues inside (.mapping number tag entries mark))))
    rw [hvalues]
    exact .mapping _ _ _ _ _ hmerged

end Value

theorem valueIn_eq {root : Node} {p : Progress} (h : evaluate root = .ok p) :
    root.valueIn = fun inner => Value.assemble root p inner.weight inner := by
  funext inner
  rw [Node.valueIn, h]

/-- Where a collection stands in itself, what it is opened as is what it is loaded as. -/
theorem opened_valueIn {root node collection : Node} {p : Progress} (hroot : root.IsIdentified)
    (h : evaluate root = .ok p) (hcollection : collection ∈ root.nodes)
    (htarget : node.target? = some collection.number) : (root.valueIn node).opened = root.valueIn collection := by
  have hfound : Value.nodeNumbered? root collection.number = some collection := by
    unfold Value.nodeNumbered?
    cases hfind : root.nodes.find? (·.number == collection.number) with
    | none => exact absurd (beq_self_eq_true _) (List.find?_eq_none.mp hfind collection hcollection)
    | some found =>
      have hsame : found.number = collection.number := by simpa using List.find?_some hfind
      rw [hroot found (List.mem_of_find?_eq_some hfind) collection hcollection hsame]
  rw [valueIn_eq h]
  dsimp only
  rw [Value.assemble_of_target? htarget, Value.opened, hfound, Option.bind_some, Value.ofNodeIn, h]
  rfl

/-- Every node that can be reached is loaded as it should be. -/
theorem isLoaded_valueIn {root node : Node} {p : Progress} (hroot : root.IsIdentified) (h : evaluate root = .ok p)
    (hnode : root.Reaches node) (htarget : node.target? = none) : node.IsLoaded root.valueIn := by
  obtain ⟨hnoted, hparts⟩ := evaluate_reached hroot h hnode
  rw [valueIn_eq h]
  refine ⟨?_, ?_, ?_⟩
  · intro name htag
    obtain ⟨parts, hparts⟩ := hparts (.inl ⟨name, htag⟩)
    obtain ⟨argument, hargument, hform⟩ := shortForm_eq name (Value.isForm_ofForm _ htarget hparts)
    refine ⟨argument, hargument, ?_⟩
    rw [Value.assemble_eq_ofCollection htarget (hnoted.short name htag), ← hform]
    unfold Value.ofCollection
    rw [htag]
  · intro htag
    obtain ⟨parts, hparts⟩ := hparts (.inr htag)
    have hform : Value.assemble root p node.weight node
        = Value.ofForm (fun inner => Value.assemble root p inner.weight inner) node := by
      rcases htag with htag | htag
      all_goals
        rw [Value.assemble_eq_ofCollection htarget (hnoted.collection _ htag rfl)]
        unfold Value.ofCollection
        rw [htag]
    rw [hform]
    exact Value.isForm_ofForm _ htarget hparts
  · intro number core text mark hscalar hcollection
    obtain ⟨value, hvalue, hread⟩ := hnoted.scalar number core text mark hscalar hcollection
    rw [hread, Value.assemble_of_value? htarget hvalue]

/-- Short tags are loaded as their long forms, at every depth, and an alias inside the collection that it names is
opened as what the collection is loaded as. Without short tags, nothing is different from a loader that does not know
them. -/
theorem load_shortTags (text : String) :
    (∀ root value, parseDocument (lex text.toList) = .ok (some root) → load text = .ok value →
      value = root.valueIn root ∧
      (∀ node, root.Reaches node → node.target? = none → node.IsLoaded root.valueIn) ∧
      ∀ node, root.Reaches node → ∀ collection ∈ root.nodes, node.target? = some collection.number →
        (root.valueIn node).opened = root.valueIn collection) ∧
    ((∀ root, parseDocument (lex text.toList) = .ok (some root) → root.IsPlain) → load text = loadPlain text) := by
  refine ⟨?_, load_eq_loadPlain⟩
  intro root value hparse hload
  obtain ⟨_, -, hload⟩ := result_bind_eq_ok hload
  rw [hparse] at hload
  change Value.ofNode root = .ok value at hload
  obtain ⟨p, hevaluate, hvalue⟩ := result_bind_eq_ok hload
  have hroot := parseDocument_isIdentified hparse
  refine ⟨?_, fun node hnode => isLoaded_valueIn hroot hevaluate hnode,
    fun node _ collection hcollection => opened_valueIn hroot hevaluate hcollection⟩
  rw [Node.valueIn, hevaluate]
  cases hvalue
  rfl

/-- A short tag in a sequence that has one itself, where the number stays a text, and a sequence without any. -/
theorem load_shortTags_nested :
    (∃ text, load "!Not [!Ref 1]" = .ok (.map [(.string "Fn::Not", .list [.map [(.string "Ref", .string text)]])])) ∧
    load "[1]" = loadPlain "[1]" := by
  constructor
  · have hshape : (parseDocument (lex "!Not [!Ref 1]".toList)).toOption.join.map (fun root =>
        (root.tag, root.items.map fun item => (item.tag, item.kind, item.target?)))
          = some (.short "Not", [(.short "Ref", .scalar, none)]) := by decide +kernel
    have hloads : (load "!Not [!Ref 1]").toBool = true := by decide +kernel
    cases hparse : parseDocument (lex "!Not [!Ref 1]".toList) with
    | error e =>
      rw [hparse] at hshape
      cases hshape
    | ok root? =>
      rw [hparse] at hshape
      obtain ⟨root, rfl, hroot⟩ := Option.map_eq_some_iff.mp hshape
      obtain ⟨htag, hitems⟩ := Prod.ext_iff.mp hroot
      obtain ⟨item, hitem, hshown⟩ := List.map_eq_singleton_iff.mp hitems
      obtain ⟨hitemTag, hitemShape⟩ := Prod.ext_iff.mp hshown
      obtain ⟨hitemKind, hitemTarget⟩ := Prod.ext_iff.mp hitemShape
      cases hload : load "!Not [!Ref 1]" with
      | error e =>
        rw [hload] at hloads
        cases hloads
      | ok value =>
        obtain ⟨rfl, hall, -⟩ := (load_shortTags _).1 root value hparse hload
        cases root with
        | sequence number tag items mark =>
          obtain rfl : items = [item] := hitem
          have hreached : Node.Reaches (.sequence number tag [item] mark) item :=
            .part .root (.inl ⟨_, htag⟩) rfl List.mem_cons_self
          obtain ⟨_, houter, hnot⟩ := (hall _ .root rfl).short "Not" htag
          obtain ⟨_, hinner, href⟩ := (hall _ hreached hitemTarget).short "Ref" hitemTag
          rcases houter with _ | ⟨_, _, -, ⟨⟩⟩
          rcases hinner with ⟨_, _, _, _, _, hname, -⟩ | ⟨_, _, -, hform⟩
          · exact absurd hname (by decide)
          · cases hform with
            | scalar number tag text mark => exact ⟨String.ofList text, by rw [hnot, List.map_singleton, href]; rfl⟩
            | _ => cases hitemKind
        | _ => cases hitem
  · refine (load_shortTags "[1]").2 fun root hparse node hnode name htag => ?_
    have hplain : (parseDocument (lex "[1]".toList)).toOption.join.map (fun root => root.nodes.map Node.tag)
        = some [.core .sequence, .core .int] := by decide +kernel
    rw [hparse] at hplain
    have htags : root.nodes.map Node.tag = [.core .sequence, .core .int] := Option.some.inj hplain
    have hmem : Tag.short name ∈ root.nodes.map Node.tag := htag ▸ List.mem_map_of_mem hnode
    rw [htags] at hmem
    exact absurd hmem (by simp)

end ResolverWiring.Yaml
