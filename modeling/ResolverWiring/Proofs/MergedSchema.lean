import Mathlib
import ResolverWiring.Proofs.FirstOfEach
import ResolverWiring.Proofs.Merge

/-!
# `Proofs.MergedSchema` — what merging makes of a schema

Merging takes the definitions one by one and keeps what it has merged so far. Seen from the end, the merged schema has
the definitions that do not repeat an object type, each at its place, and an object type that is declared several times
has what all of its blocks declare (`mergeDefinitions_eq`). A block that is added at the end is merged into what the
blocks in front of it make together, so the description holds by induction on the definitions, one step for each.

Blocks of one object type are merged associatively (`ObjectBlock.merge_assoc`), and blocks of different types do not
meet. So parts of a schema can be merged first (`mergeDefinitions_in_stages`).
-/

namespace ResolverWiring.Graphql

variable {name : String} {c d both : Definition} {definitions front back : List Definition}

/-! ## The names of object types -/

theorem mem_objectNames : name ∈ objectNames definitions ↔ ∃ d ∈ definitions, d.objectName? = some name :=
  List.mem_filterMap

theorem objectNames_append (front back : List Definition) :
    objectNames (front ++ back) = objectNames front ++ objectNames back :=
  List.filterMap_append

theorem objectNames_cons (d : Definition) (definitions : List Definition) :
    objectNames (d :: definitions) = d.objectName?.toList ++ objectNames definitions := by
  rw [objectNames, List.filterMap_cons]
  cases d.objectName? <;> rfl

/-! ## Blocks of object types -/

/-- What one definition of an object type declares. -/
structure ObjectBlock where
  description : Option StringLiteral
  interfaces : List String
  directives : List Directive
  fields : List FieldDef

variable {block added : ObjectBlock}

namespace ObjectBlock

/-- The definition of an object type with this block. -/
def define (name : String) (block : ObjectBlock) : Definition :=
  .type block.description ⟨name, block.directives, .object block.interfaces block.fields⟩

/-- What several blocks declare together: the first description, all fields, and of interfaces and directives those
that do not repeat the name of an earlier one. -/
def join (blocks : List ObjectBlock) : ObjectBlock where
  description := blocks.findSome? (·.description)
  interfaces := leading (fun a b => a == b) (blocks.flatMap (·.interfaces))
  directives := leading (fun a b => a.name == b.name) (blocks.flatMap (·.directives))
  fields := blocks.flatMap (·.fields)

/-- What two blocks of which one is added to the other become. -/
def merge (block added : ObjectBlock) : ObjectBlock where
  description := block.description <|> added.description
  interfaces := firstOfEach id (block.interfaces ++ added.interfaces)
  directives := firstOfEach (·.name) (block.directives ++ added.directives)
  fields := block.fields ++ added.fields

theorem merge_assoc (a b c : ObjectBlock) : (a.merge b).merge c = a.merge (b.merge c) := by
  have hdescription : ((a.description <|> b.description) <|> c.description)
      = (a.description <|> b.description <|> c.description) := by
    cases a.description <;> rfl
  simp only [merge, hdescription, firstOfEach_append_left, firstOfEach_append_right, List.append_assoc]

/-- One more block is merged into what the others declare together. -/
theorem join_concat (blocks : List ObjectBlock) (added : ObjectBlock) :
    join (blocks ++ [added]) = (join blocks).merge added := by
  have hdescription : (blocks ++ [added]).findSome? (·.description)
      = (blocks.findSome? (·.description) <|> added.description) := by
    rw [List.findSome?_append, List.findSome?_singleton]
    cases blocks.findSome? (·.description) <;> rfl
  have hinterfaces : firstOfEach id = leading (fun a b : String => a == b) := funext (firstOfEach_eq_leading id)
  have hdirectives : firstOfEach (·.name) = leading (fun a b : Directive => a.name == b.name) :=
    funext (firstOfEach_eq_leading _)
  simp only [join, merge, hdescription, ← hinterfaces, ← hdirectives, List.flatMap_append, List.flatMap_singleton,
    firstOfEach_append_left]

theorem join_pair (block added : ObjectBlock) : join [block, added] = block.merge added := by
  -- repetitions within the first block go when the second one comes
  have hpair := join_concat [block] added
  have hsingle := join_concat [] block
  rw [List.nil_append] at hsingle
  have hempty : merge (join []) block
      = ⟨block.description, firstOfEach id block.interfaces, firstOfEach (·.name) block.directives, block.fields⟩ := rfl
  rw [List.singleton_append, hsingle, hempty] at hpair
  rw [hpair]
  simp only [merge, firstOfEach_append_left]

end ObjectBlock

theorem exists_define (h : d.objectName? = some name) : ∃ block, d = ObjectBlock.define name block := by
  unfold Definition.objectName? at h
  split at h
  · rename_i description name' directives interfaces fields
    cases h
    exact ⟨⟨description, interfaces, directives, fields⟩, rfl⟩
  · cases h

/-- What a definition declares of the object type of a name. -/
def Definition.blockOf? (name : String) : Definition → Option ObjectBlock
  | .type description ⟨name', directives, .object interfaces fields⟩ =>
    if name' = name then some ⟨description, interfaces, directives, fields⟩ else none
  | _ => none

theorem blockOf?_define (name : String) (block : ObjectBlock) : (block.define name).blockOf? name = some block :=
  if_pos rfl

theorem blockOf?_of_ne (h : d.objectName? ≠ some name) : d.blockOf? name = none := by
  unfold Definition.blockOf?
  split
  · rename_i name' directives interfaces fields
    exact if_neg fun heq => h (congrArg some heq)
  · rfl

/-- The blocks of the object type of a name, in order. -/
def objectBlocks (name : String) (definitions : List Definition) : List ObjectBlock :=
  definitions.filterMap (·.blockOf? name)

theorem objectBlocks_concat_define (name : String) (definitions : List Definition) (added : ObjectBlock) :
    objectBlocks name (definitions ++ [added.define name]) = objectBlocks name definitions ++ [added] := by
  rw [objectBlocks, List.filterMap_append, List.filterMap_cons_some (blockOf?_define name added)]
  rfl

theorem objectBlocks_concat_of_ne (h : d.objectName? ≠ some name) :
    objectBlocks name (definitions ++ [d]) = objectBlocks name definitions := by
  rw [objectBlocks, List.filterMap_append, List.filterMap_cons_none (blockOf?_of_ne h)]
  exact List.append_nil _

theorem mem_objectBlocks_of_mem (h : ObjectBlock.define name block ∈ definitions) : block ∈ objectBlocks name definitions :=
  List.mem_filterMap.mpr ⟨_, h, blockOf?_define name block⟩

/-! ## Adding one definition -/

theorem mergedWith?_define (name : String) (block added : ObjectBlock) :
    (block.define name).mergedWith? (added.define name) = some ((block.merge added).define name) := if_pos rfl

theorem mergedWith?_define_of_ne (added : ObjectBlock) (h : d.objectName? ≠ some name) :
    d.mergedWith? (added.define name) = none :=
  mergedWith?_eq_none fun other hother heq => h (by cases heq; exact hother)

/-- Definitions that can be merged are of one object type, and so is what they become. -/
theorem objectName?_mergedWith? (h : c.mergedWith? d = some both) :
    both.objectName? = c.objectName? ∧ d.objectName? = c.objectName? := by
  unfold Definition.mergedWith? at h
  split at h
  · rename_i name directives interfaces fields _ name' directives' interfaces' fields'
    by_cases hname : name = name'
    · rw [if_pos hname] at h
      cases h
      exact ⟨rfl, congrArg some hname.symm⟩
    · rw [if_neg hname] at h
      cases h
  · cases h

theorem mem_objectNames_mergeInto :
    name ∈ objectNames (mergeInto definitions d) ↔ name ∈ objectNames definitions ∨ d.objectName? = some name := by
  induction definitions with
  | nil => rw [mergeInto, objectNames_cons, List.mem_append, Option.mem_toList, or_comm]
  | cons first others ih =>
    rw [mergeInto]
    cases hboth : first.mergedWith? d with
    | none => rw [objectNames_cons, objectNames_cons, List.mem_append, List.mem_append, ih, or_assoc]
    | some both =>
      obtain ⟨hbothName, hdName⟩ := objectName?_mergedWith? hboth
      rw [objectNames_cons, objectNames_cons, hbothName, hdName, List.mem_append, Option.mem_toList]
      tauto

/-- A block is merged into the definition of its object type. -/
theorem mergeInto_append_define (hfront : ∀ d ∈ front, d.objectName? ≠ some name) :
    mergeInto (front ++ block.define name :: back) (added.define name)
      = front ++ (block.merge added).define name :: back := by
  induction front with
  | nil => rw [List.nil_append, mergeInto, mergedWith?_define, List.nil_append]
  | cons first others ih =>
    rw [List.cons_append, mergeInto, mergedWith?_define_of_ne added (hfront first List.mem_cons_self), List.cons_append,
      ← ih fun d hd => hfront d (List.mem_cons_of_mem first hd)]

theorem mergeDefinitions_concat (definitions : List Definition) (d : Definition) :
    mergeDefinitions (definitions ++ [d]) = mergeInto (mergeDefinitions definitions) d := by
  rw [mergeDefinitions, List.foldl_append, List.foldl_cons, List.foldl_nil, mergeDefinitions]

/-- Where every object type is declared once, the definition of one stands between those of other types. -/
theorem exists_split (hmem : name ∈ objectNames definitions) (hnodup : (objectNames definitions).Nodup) :
    ∃ front block back, definitions = front ++ ObjectBlock.define name block :: back ∧
      (∀ d ∈ front, d.objectName? ≠ some name) ∧ ∀ d ∈ back, d.objectName? ≠ some name := by
  obtain ⟨d, hd, hname⟩ := mem_objectNames.mp hmem
  obtain ⟨block, rfl⟩ := exists_define hname
  obtain ⟨front, back, rfl⟩ := List.append_of_mem hd
  rw [objectNames_append, objectNames_cons, hname] at hnodup
  obtain ⟨-, hback, hfront⟩ := List.nodup_append.mp hnodup
  refine ⟨front, block, back, rfl, fun d hd hdname => ?_, fun d hd hdname => ?_⟩
  · exact hfront name (mem_objectNames.mpr ⟨d, hd, hdname⟩) name List.mem_cons_self rfl
  · exact (List.nodup_cons.mp hback).1 (mem_objectNames.mpr ⟨d, hd, hdname⟩)

/-! ## The merged definitions -/

/-- Whether two definitions are of one object type. -/
def Definition.sameObject (a b : Definition) : Bool :=
  a.objectName?.isSome && a.objectName? == b.objectName?

/-- The definition with what all blocks of its object type declare, where there are several. -/
def Definition.joinedIn (definitions : List Definition) (d : Definition) : Definition :=
  match d.objectName? with
  | none => d
  | some name =>
    match objectBlocks name definitions with
    | [_] => d
    | blocks => (ObjectBlock.join blocks).define name

theorem objectName?_joinedIn (definitions : List Definition) (d : Definition) :
    (d.joinedIn definitions).objectName? = d.objectName? := by
  unfold Definition.joinedIn
  split
  · rfl
  · rename_i name hname
    split
    · rfl
    · exact hname.symm

theorem objectNames_joinedIn (definitions ds : List Definition) :
    objectNames (ds.map (·.joinedIn definitions)) = objectNames ds := by
  rw [objectNames, objectNames, List.filterMap_map]
  exact List.filterMap_congr fun d _ => objectName?_joinedIn definitions d

/-- A definition of another object type, or of none, does not matter. -/
theorem joinedIn_concat_of_ne (h : ∀ name ∈ c.objectName?, d.objectName? ≠ some name) :
    c.joinedIn (definitions ++ [d]) = c.joinedIn definitions := by
  unfold Definition.joinedIn
  split
  · rfl
  · rename_i name hname
    rw [objectBlocks_concat_of_ne (h name hname)]

theorem map_joinedIn_concat (h : ∀ c ∈ front, ∀ name ∈ c.objectName?, d.objectName? ≠ some name) :
    front.map (·.joinedIn (definitions ++ [d])) = front.map (·.joinedIn definitions) :=
  List.map_congr_left fun c hc => joinedIn_concat_of_ne (h c hc)

theorem objectBlocks_eq_nil (h : name ∉ objectNames definitions) : objectBlocks name definitions = [] :=
  List.filterMap_eq_nil_iff.mpr fun d hd => blockOf?_of_ne fun hname => h (mem_objectNames.mpr ⟨d, hd, hname⟩)

/-- The only block of an object type stays as it is. -/
theorem joinedIn_concat_self (h : ∀ name ∈ d.objectName?, name ∉ objectNames definitions) :
    d.joinedIn (definitions ++ [d]) = d := by
  cases hname : d.objectName? with
  | none => simp only [Definition.joinedIn, hname]
  | some name =>
    obtain ⟨block, rfl⟩ := exists_define hname
    have hblocks : objectBlocks name (definitions ++ [block.define name]) = [block] := by
      rw [objectBlocks_concat_define, objectBlocks_eq_nil (h name hname), List.nil_append]
    simp only [Definition.joinedIn, hname, hblocks]

/-- One more block is merged into what the blocks of its object type have been joined to. -/
theorem joinedIn_concat_define (hmem : block.define name ∈ definitions) (added : ObjectBlock) :
    ∃ joined : ObjectBlock, (block.define name).joinedIn definitions = joined.define name ∧
      (block.define name).joinedIn (definitions ++ [added.define name]) = (joined.merge added).define name := by
  have hname : (block.define name).objectName? = some name := rfl
  have hblock := mem_objectBlocks_of_mem hmem
  unfold Definition.joinedIn
  simp only [hname, objectBlocks_concat_define]
  match hblocks : objectBlocks name definitions with
  | [] =>
    rw [hblocks] at hblock
    cases hblock
  | [only] =>
    rw [hblocks, List.mem_singleton] at hblock
    refine ⟨block, rfl, ?_⟩
    rw [← hblock]
    exact congrArg (ObjectBlock.define name) (ObjectBlock.join_pair block added)
  | first :: second :: others =>
    exact ⟨.join (first :: second :: others), rfl,
      congrArg (ObjectBlock.define name) (ObjectBlock.join_concat (first :: second :: others) added)⟩

/-- Definitions leave out a further one exactly if it is of an object type that they declare. -/
theorem any_sameObject : definitions.any (·.sameObject d) = true ↔
    ∃ name, d.objectName? = some name ∧ name ∈ objectNames definitions := by
  rw [List.any_eq_true]
  constructor
  · rintro ⟨a, ha, hsame⟩
    obtain ⟨hsome, heq⟩ := Bool.and_eq_true_iff.mp hsame
    obtain ⟨name, hname⟩ := Option.isSome_iff_exists.mp hsome
    exact ⟨name, beq_iff_eq.mp heq ▸ hname, mem_objectNames.mpr ⟨a, ha, hname⟩⟩
  · rintro ⟨name, hname, hmem⟩
    obtain ⟨a, ha, haname⟩ := mem_objectNames.mp hmem
    refine ⟨a, ha, ?_⟩
    rw [Definition.sameObject, haname, hname]
    exact beq_self_eq_true (some name)

/-- Every object type that definitions declare is among those that stay, once. -/
theorem objectNames_leading (definitions : List Definition) :
    (∀ name, name ∈ objectNames (leading Definition.sameObject definitions) ↔ name ∈ objectNames definitions) ∧
      (objectNames (leading Definition.sameObject definitions)).Nodup := by
  induction definitions using List.reverseRecOn with
  | nil => exact ⟨fun _ => Iff.rfl, List.nodup_nil⟩
  | append_singleton ds d ih =>
    obtain ⟨hmem, hnodup⟩ := ih
    have hlast : objectNames [d] = d.objectName?.toList := by
      rw [objectNames_cons]
      exact List.append_nil _
    rw [leading_concat]
    by_cases hany : ds.any (·.sameObject d) = true
    · rw [if_pos hany]
      obtain ⟨name, hname, hrepeated⟩ := any_sameObject.mp hany
      refine ⟨fun other => ?_, hnodup⟩
      rw [hmem, objectNames_append, hlast, hname, List.mem_append]
      refine ⟨.inl, Or.rec id fun hother => ?_⟩
      rw [List.mem_singleton.mp hother]
      exact hrepeated
    · rw [if_neg hany, objectNames_append, objectNames_append, hlast]
      refine ⟨fun other => by rw [List.mem_append, List.mem_append, hmem], ?_⟩
      refine List.nodup_append.mpr ⟨hnodup, by cases d.objectName? <;> simp, fun name hname other hother heq => hany ?_⟩
      subst heq
      exact any_sameObject.mpr ⟨name, Option.mem_toList.mp hother, (hmem name).mp hname⟩

/-- **What merging makes of definitions.** Every definition that does not repeat an object type stays at its place, as
it is or, where the type is declared several times, with what all of its blocks declare. -/
theorem mergeDefinitions_eq (definitions : List Definition) :
    mergeDefinitions definitions = (leading Definition.sameObject definitions).map (·.joinedIn definitions) := by
  induction definitions using List.reverseRecOn with
  | nil => rfl
  | append_singleton ds d ih =>
    rw [mergeDefinitions_concat, ih, leading_concat]
    obtain ⟨hnames, hnodup⟩ := objectNames_leading ds
    by_cases hany : ds.any (·.sameObject d) = true
    · -- the block goes to the definition of its type, and no other definition is of that type
      obtain ⟨name, hname, hmem⟩ := any_sameObject.mp hany
      obtain ⟨added, rfl⟩ := exists_define hname
      obtain ⟨front, block, back, hsplit, hfront, hback⟩ := exists_split ((hnames name).mpr hmem) hnodup
      have hblock : block.define name ∈ ds :=
        (leading_sublist _ ds).subset (hsplit ▸ List.mem_append_right front List.mem_cons_self)
      obtain ⟨joined, hjoined, hmerged⟩ := joinedIn_concat_define hblock added
      rw [if_pos hany, hsplit, List.map_append, List.map_append, List.map_cons, List.map_cons, hjoined, hmerged,
        mergeInto_append_define, map_joinedIn_concat, map_joinedIn_concat]
      · intro c hc other hother heq
        cases heq
        exact hback c hc hother
      · intro c hc other hother heq
        cases heq
        exact hfront c hc hother
      · intro c hc hcname
        obtain ⟨d, hd, rfl⟩ := List.mem_map.mp hc
        exact hfront d hd (objectName?_joinedIn ds d ▸ hcname)
    · -- a definition that repeats no object type comes to the end
      rw [if_neg hany, List.map_append, List.map_singleton]
      have hnew : ∀ name ∈ d.objectName?, name ∉ objectNames ds :=
        fun name hname hmem => hany (any_sameObject.mpr ⟨name, hname, hmem⟩)
      rw [map_joinedIn_concat, joinedIn_concat_self hnew, mergeInto_eq_append]
      · intro name hname hmem
        rw [objectNames_joinedIn, hnames] at hmem
        exact hnew name hname hmem
      · intro c hc name hname hd
        exact hnew name hd ((hnames name).mp (mem_objectNames.mpr ⟨c, hc, hname⟩))

/-! ## Merging in stages -/

theorem nodup_objectNames_mergeDefinitions (definitions : List Definition) :
    (objectNames (mergeDefinitions definitions)).Nodup := by
  rw [mergeDefinitions_eq, objectNames_joinedIn]
  exact (objectNames_leading definitions).2

/-- Two blocks of an object type can be merged with each other before they are added. -/
theorem mergeInto_mergeInto (merged : List Definition) (name : String) (block added : ObjectBlock) :
    mergeInto (mergeInto merged (block.define name)) (added.define name)
      = mergeInto merged ((block.merge added).define name) := by
  induction merged with
  | nil => simp only [mergeInto, mergedWith?_define]
  | cons first others ih =>
    by_cases hfirst : first.objectName? = some name
    · obtain ⟨current, rfl⟩ := exists_define hfirst
      simp only [mergeInto, mergedWith?_define, ObjectBlock.merge_assoc]
    · simp only [mergeInto, mergedWith?_define_of_ne _ hfirst, ih]

/-- Once an object type is there, its further blocks and definitions of other types can be added in any order. -/
theorem mergeInto_comm (added : ObjectBlock) (hname : name ∈ objectNames definitions) (hd : d.objectName? ≠ some name) :
    mergeInto (mergeInto definitions (added.define name)) d = mergeInto (mergeInto definitions d) (added.define name) := by
  induction definitions with
  | nil => cases hname
  | cons first others ih =>
    by_cases hfirst : first.objectName? = some name
    · obtain ⟨current, rfl⟩ := exists_define hfirst
      have hnone : ∀ block : ObjectBlock, (block.define name).mergedWith? d = none :=
        fun block => mergedWith?_eq_none fun other hother hdname => hd (by cases hother; exact hdname)
      simp only [mergeInto, mergedWith?_define, hnone]
    · have hothers : name ∈ objectNames others := by
        rw [objectNames_cons, List.mem_append] at hname
        exact hname.resolve_left fun hmem => hfirst (Option.mem_toList.mp hmem)
      cases hboth : first.mergedWith? d with
      | none => simp only [mergeInto, mergedWith?_define_of_ne added hfirst, hboth, ih hothers]
      | some both =>
        have hbothName : both.objectName? ≠ some name := (objectName?_mergedWith? hboth).1 ▸ hfirst
        simp only [mergeInto, mergedWith?_define_of_ne added hfirst, hboth, mergedWith?_define_of_ne added hbothName]

theorem foldl_mergeInto_comm {merged : List Definition} (added : ObjectBlock) (hname : name ∈ objectNames merged)
    (hothers : ∀ d ∈ definitions, d.objectName? ≠ some name) :
    definitions.foldl mergeInto (mergeInto merged (added.define name))
      = mergeInto (definitions.foldl mergeInto merged) (added.define name) := by
  induction definitions generalizing merged with
  | nil => rfl
  | cons d ds ih =>
    rw [List.foldl_cons, List.foldl_cons, mergeInto_comm added hname (hothers d List.mem_cons_self)]
    exact ih (mem_objectNames_mergeInto.mpr (.inl hname)) fun e he => hothers e (List.mem_cons_of_mem d he)

/-- A definition can be added to definitions that are merged into others, or after that. -/
theorem foldl_mergeInto_mergeInto (merged : List Definition) (hnodup : (objectNames definitions).Nodup) (d : Definition) :
    (mergeInto definitions d).foldl mergeInto merged = mergeInto (definitions.foldl mergeInto merged) d := by
  by_cases hnew : ∀ name ∈ d.objectName?, name ∉ objectNames definitions
  · rw [mergeInto_eq_append hnew, List.foldl_append, List.foldl_cons, List.foldl_nil]
  · push Not at hnew
    obtain ⟨name, hname, hmem⟩ := hnew
    obtain ⟨added, rfl⟩ := exists_define hname
    obtain ⟨front, block, back, rfl, hfront, hback⟩ := exists_split hmem hnodup
    have hthere : name ∈ objectNames (mergeInto (front.foldl mergeInto merged) (block.define name)) :=
      mem_objectNames_mergeInto.mpr (.inr rfl)
    rw [mergeInto_append_define hfront, List.foldl_append, List.foldl_cons, List.foldl_append, List.foldl_cons,
      ← mergeInto_mergeInto, foldl_mergeInto_comm added hthere hback]

/-- Definitions can be merged with each other before they are merged into others. -/
theorem foldl_mergeInto_mergeDefinitions (merged definitions : List Definition) :
    (mergeDefinitions definitions).foldl mergeInto merged = definitions.foldl mergeInto merged := by
  induction definitions using List.reverseRecOn with
  | nil => rfl
  | append_singleton ds d ih =>
    rw [mergeDefinitions_concat, foldl_mergeInto_mergeInto merged (nodup_objectNames_mergeDefinitions ds), ih,
      List.foldl_append, List.foldl_cons, List.foldl_nil]

/-- Merging again changes nothing. -/
theorem mergeDefinitions_mergeDefinitions (definitions : List Definition) :
    mergeDefinitions (mergeDefinitions definitions) = mergeDefinitions definitions :=
  mergeDefinitions_of_nodup (nodup_objectNames_mergeDefinitions definitions)

end ResolverWiring.Graphql

namespace ResolverWiring

open Graphql

variable {fragments : List SchemaFragment}

theorem mergeFragments_eq_error {e : FragmentError} :
    mergeFragments fragments = .error e ↔ SchemaFragment.parseAll fragments = .error e := by
  rw [mergeFragments]
  cases SchemaFragment.parseAll fragments <;> simp [Except.map]

theorem mergeFragments_eq_ok {text : String} : mergeFragments fragments = .ok text ↔
    ∃ documents, SchemaFragment.parseAll fragments = .ok documents ∧ text = (Document.merged documents).print := by
  rw [mergeFragments]
  cases SchemaFragment.parseAll fragments <;> simp [Except.map, eq_comm]

/-- Fragments are merged exactly if each of them is in the grammar. -/
theorem mergeFragments_fails_iff : (∃ e, mergeFragments fragments = .error e) ↔
    ∃ fragment ∈ fragments, ∀ document, Document.parse fragment.text ≠ .ok document := by
  simp only [mergeFragments_eq_error]
  constructor
  · rintro ⟨e, he⟩
    obtain ⟨front, fragment, back, rfl, -, fault, hfault, -⟩ := SchemaFragment.parseAll_eq_error.mp he
    refine ⟨fragment, List.mem_append_right front List.mem_cons_self, fun document hdocument => ?_⟩
    cases hfault.symm.trans hdocument
  · rintro ⟨fragment, hmem, hfragment⟩
    cases hparts : SchemaFragment.parseAll fragments with
    | error e => exact ⟨e, rfl⟩
    | ok documents =>
      have hall := (SchemaFragment.parseAll_eq_ok.mp hparts).imp
        fun fragment document h => And.intro (Exists.intro document h) h
      obtain ⟨document, hdocument⟩ := ((List.forall₂_and_left _ _).mp hall).1 fragment hmem
      exact absurd hdocument (hfragment document)

/-- **What merging makes of fragments.** It fails exactly if some fragment is not in the grammar, with the error of the
first one, whose message has the path of its file and that of the syntax error. Otherwise the text is that of the
document in which every definition that does not repeat an object type stands at its place, as it is or joined from all
blocks of its type. -/
theorem mergeFragments_exact (fragments : List SchemaFragment) :
    ((∃ e, mergeFragments fragments = .error e) ↔
      ∃ fragment ∈ fragments, ∀ document, Document.parse fragment.text ≠ .ok document) ∧
    (∀ e, mergeFragments fragments = .error e ↔
      ∃ front fragment back, fragments = front ++ fragment :: back ∧
        (∀ earlier ∈ front, ∃ document, Document.parse earlier.text = .ok document) ∧
        ∃ fault, Document.parse fragment.text = .error fault ∧ e = ⟨fragment.path, fault.cause⟩) ∧
    (∀ e : FragmentError, e.message = "Invalid schema fragment " ++ e.path.toString ++ ": " ++ e.cause.message) ∧
    ∀ text, mergeFragments fragments = .ok text ↔
      ∃ documents, List.Forall₂ (fun fragment document => Document.parse fragment.text = .ok document) fragments documents ∧
        text = Document.print ⟨(leading Definition.sameObject (documents.flatMap (·.definitions))).map
          (·.joinedIn (documents.flatMap (·.definitions)))⟩ := by
  refine ⟨mergeFragments_fails_iff, fun e => ?_, fun _ => rfl, fun text => ?_⟩
  · rw [mergeFragments_eq_error, SchemaFragment.parseAll_eq_error]
  · simp only [mergeFragments_eq_ok, SchemaFragment.parseAll_eq_ok, Document.merged, mergeDefinitions_eq]

/-- **Merging can be done in stages.** Parts of a definition list can be merged first, what is merged stays as it is,
and fragments with the same definitions in the same order are merged to the same schema. -/
theorem mergeDefinitions_in_stages :
    (∀ front back, mergeDefinitions (mergeDefinitions front ++ mergeDefinitions back) = mergeDefinitions (front ++ back)) ∧
    (∀ definitions, mergeDefinitions (mergeDefinitions definitions) = mergeDefinitions definitions) ∧
    ∀ fragments fragments' documents documents',
      SchemaFragment.parseAll fragments = .ok documents → SchemaFragment.parseAll fragments' = .ok documents' →
      documents.flatMap (·.definitions) = documents'.flatMap (·.definitions) →
      mergeFragments fragments = mergeFragments fragments' := by
  refine ⟨fun front back => ?_, mergeDefinitions_mergeDefinitions, ?_⟩
  · calc
      mergeDefinitions (mergeDefinitions front ++ mergeDefinitions back)
        = (mergeDefinitions back).foldl mergeInto (mergeDefinitions (mergeDefinitions front)) := List.foldl_append
      _ = back.foldl mergeInto (mergeDefinitions front) := by
        rw [mergeDefinitions_mergeDefinitions, foldl_mergeInto_mergeDefinitions]
      _ = mergeDefinitions (front ++ back) := List.foldl_append.symm
  · intro fragments fragments' documents documents' hdocuments hdocuments' hsame
    have hmerged : Document.merged documents = Document.merged documents' :=
      congrArg (fun definitions => Document.mk (mergeDefinitions definitions)) hsame
    rw [mergeFragments_eq_ok.mpr ⟨documents, hdocuments, rfl⟩, mergeFragments_eq_ok.mpr ⟨documents', hdocuments', rfl⟩,
      hmerged]

/-- Two blocks of an object type in one file, and in two files. -/
theorem mergeDefinitions_in_stages_two_files : ∃ whole parts documents documents',
    whole = [⟨.ofString "s.graphql", "type A \x7b f: Int \x7d type A \x7b g: Int \x7d"⟩] ∧
    parts = [⟨.ofString "a.graphql", "type A \x7b f: Int \x7d"⟩, ⟨.ofString "b.graphql", "type A \x7b g: Int \x7d"⟩] ∧
    SchemaFragment.parseAll whole = .ok documents ∧ SchemaFragment.parseAll parts = .ok documents' ∧
    documents.flatMap (·.definitions) = documents'.flatMap (·.definitions) ∧
    mergeFragments whole = mergeFragments parts := by
  let f : Definition := .type none ⟨"A", [], .object [] [⟨none, "f", [], .named "Int" false, []⟩]⟩
  let g : Definition := .type none ⟨"A", [], .object [] [⟨none, "g", [], .named "Int" false, []⟩]⟩
  have hwhole : SchemaFragment.parseAll [⟨.ofString "s.graphql", "type A \x7b f: Int \x7d type A \x7b g: Int \x7d"⟩]
      = .ok [⟨[f, g]⟩] := SchemaFragment.parseAll_eq_ok.mpr (.cons (by cbv) .nil)
  have hparts : SchemaFragment.parseAll [⟨.ofString "a.graphql", "type A \x7b f: Int \x7d"⟩,
      ⟨.ofString "b.graphql", "type A \x7b g: Int \x7d"⟩] = .ok [⟨[f]⟩, ⟨[g]⟩] :=
    SchemaFragment.parseAll_eq_ok.mpr (.cons (by cbv) (.cons (by cbv) .nil))
  exact ⟨_, _, _, _, rfl, rfl, hwhole, hparts, rfl, mergeDefinitions_in_stages.2.2 _ _ _ _ hwhole hparts rfl⟩

end ResolverWiring
