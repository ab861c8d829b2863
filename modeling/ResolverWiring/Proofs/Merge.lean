import Mathlib.Data.List.Perm.Basic
import ResolverWiring.Proofs.Scan
import ResolverWiring.Schema.Merge

/-!
# `Proofs.Merge` — merging fragments and scanning them

Merging moves the fields of a later object type into the first one of its name and leaves every field
as it is; a scan changes fields and leaves the blocks around them as they are. So the two commute:

* `mergeDefinitions_map_mapFields`: changing all fields before a merge or after it is the same;
* `fields_mergeDefinitions`: a merge permutes the fields, each of which keeps the name of its type.

`scan_merged_fragments` draws the consequence for a schema in several files.
-/

namespace ResolverWiring

open Graphql

/-! ## Parsing fragments -/

theorem SchemaFragment.parse_eq_ok {fragment : SchemaFragment} {document : Document} :
    fragment.parse = .ok document ↔ Document.parse fragment.text = .ok document := by
  unfold SchemaFragment.parse
  cases Document.parse fragment.text with
  | error fault =>
    constructor
    all_goals
      intro h
      cases h
  | ok parsed =>
    constructor
    all_goals
      intro h
      cases h
      rfl

theorem SchemaFragment.parse_eq_error {fragment : SchemaFragment} {e : FragmentError} :
    fragment.parse = .error e ↔
      ∃ fault, Document.parse fragment.text = .error fault ∧ e = ⟨fragment.path, fault.cause⟩ := by
  unfold SchemaFragment.parse
  cases Document.parse fragment.text with
  | error fault =>
    constructor
    · intro h
      cases h
      exact ⟨fault, rfl, rfl⟩
    · rintro ⟨fault', h, rfl⟩
      cases h
      rfl
  | ok document =>
    constructor
    · intro h
      cases h
    · rintro ⟨fault, h, -⟩
      cases h

theorem SchemaFragment.parseAll_eq_ok {fragments : List SchemaFragment} {documents : List Document} :
    parseAll fragments = .ok documents ↔
      List.Forall₂ (fun fragment document => Document.parse fragment.text = .ok document) fragments documents := by
  rw [parseAll, mapM_eq_ok]
  simp only [parse_eq_ok]

/-- Parsing fragments fails with the first one that is not in the grammar. -/
theorem SchemaFragment.parseAll_eq_error {fragments : List SchemaFragment} {e : FragmentError} :
    parseAll fragments = .error e ↔ ∃ front fragment back, fragments = front ++ fragment :: back ∧
      (∀ earlier ∈ front, ∃ document, Document.parse earlier.text = .ok document) ∧
      ∃ fault, Document.parse fragment.text = .error fault ∧ e = ⟨fragment.path, fault.cause⟩ := by
  rw [parseAll, mapM_eq_error]
  simp only [parse_eq_ok, parse_eq_error]

/-! ## Merging distinct types -/

/-- The name of an object type. -/
def Graphql.Definition.objectName? : Definition → Option String
  | .type _ ⟨name, _, .object _ _⟩ => some name
  | _ => none

/-- The names of the object types that a definition list declares. -/
def objectNames (definitions : List Definition) : List String :=
  definitions.filterMap Definition.objectName?

theorem mergedWith?_eq_none {a b : Definition}
    (h : ∀ name ∈ a.objectName?, name ∉ b.objectName?) : a.mergedWith? b = none := by
  unfold Definition.mergedWith?
  split
  · rename_i name directives interfaces fields _ name' directives' interfaces' fields'
    have hne : name ≠ name' := fun heq => h name rfl (congrArg some heq.symm)
    rw [if_neg hne]
  · rfl

/-- A definition that is no object type declared before stays one of its own. -/
theorem mergeInto_eq_append {merged : List Definition} {addition : Definition}
    (h : ∀ name ∈ addition.objectName?, name ∉ objectNames merged) :
    mergeInto merged addition = merged ++ [addition] := by
  induction merged with
  | nil => rfl
  | cons current others ih =>
    have hcurrent : current.mergedWith? addition = none := mergedWith?_eq_none fun name hname hmem =>
      h name hmem (List.mem_filterMap.mpr ⟨current, List.mem_cons_self, hname⟩)
    have hothers : ∀ name ∈ addition.objectName?, name ∉ objectNames others := by
      intro name hname hmem
      obtain ⟨d, hd, hdname⟩ := List.mem_filterMap.mp hmem
      exact h name hname (List.mem_filterMap.mpr ⟨d, List.mem_cons_of_mem current hd, hdname⟩)
    rw [mergeInto, hcurrent, List.cons_append, ← ih hothers]

/-- Merging leaves definitions alone whose object types have different names. -/
theorem mergeDefinitions_of_nodup {definitions : List Definition}
    (h : (objectNames definitions).Nodup) : mergeDefinitions definitions = definitions := by
  -- by induction on what is still to be merged, over whatever has been merged
  have hfold : ∀ (ds merged : List Definition), (objectNames (merged ++ ds)).Nodup →
      ds.foldl mergeInto merged = merged ++ ds := by
    intro ds
    induction ds with
    | nil => intro merged _; exact (List.append_nil merged).symm
    | cons d ds ih =>
      intro merged hnodup
      have hnew : ∀ name ∈ d.objectName?, name ∉ objectNames merged := by
        intro name hname hmem
        rw [objectNames, List.filterMap_append, List.filterMap_cons_some hname] at hnodup
        exact (List.nodup_append.mp hnodup).2.2 name hmem name List.mem_cons_self rfl
      rw [List.foldl_cons, mergeInto_eq_append hnew, ih _ (by rwa [List.append_assoc]),
        List.append_assoc]
      rfl
  exact hfold definitions [] h

/-! ## Merging and changing fields -/

variable {f : FieldDef → FieldDef} {a b both : Definition}

/-- A definition can be merged after a change of fields exactly if it can be merged before it. -/
theorem mergedWith?_mapFields (f : FieldDef → FieldDef) (a b : Definition) :
    (a.mapFields f).mergedWith? (b.mapFields f) = (a.mergedWith? b).map (·.mapFields f) := by
  cases a with
  | type description decl =>
    obtain ⟨name, directives, body⟩ := decl
    cases b with
    | type description' decl' =>
      obtain ⟨name', directives', body'⟩ := decl'
      cases body with
      | object interfaces fields =>
        cases body' with
        | object interfaces' fields' =>
          simp only [Definition.mapFields, TypeBody.mapFields, Definition.mergedWith?]
          by_cases hname : name = name'
          · rw [if_pos hname, if_pos hname, ← List.map_append]
            rfl
          · rw [if_neg hname, if_neg hname]
            rfl
        | _ => rfl
      | _ => rfl
    | _ => cases body <;> rfl
  | _ => rfl

theorem mergeInto_mapFields (f : FieldDef → FieldDef) (merged : List Definition)
    (addition : Definition) :
    mergeInto (merged.map (·.mapFields f)) (addition.mapFields f)
      = (mergeInto merged addition).map (·.mapFields f) := by
  induction merged with
  | nil => rfl
  | cons current others ih =>
    simp only [List.map_cons, mergeInto, mergedWith?_mapFields]
    cases current.mergedWith? addition with
    | none => simp only [Option.map_none, ih, List.map_cons]
    | some both => rfl

/-- Fields can be changed before a merge or after it. -/
theorem mergeDefinitions_map_mapFields (f : FieldDef → FieldDef) (definitions : List Definition) :
    mergeDefinitions (definitions.map (·.mapFields f))
      = (mergeDefinitions definitions).map (·.mapFields f) := by
  have hfold : ∀ (ds merged : List Definition),
      (ds.map (·.mapFields f)).foldl mergeInto (merged.map (·.mapFields f))
        = (ds.foldl mergeInto merged).map (·.mapFields f) := by
    intro ds
    induction ds with
    | nil => intro merged; rfl
    | cons d ds ih =>
      intro merged
      rw [List.map_cons, List.foldl_cons, List.foldl_cons, mergeInto_mapFields, ih]
  exact hfold definitions []

/-! ## Merging and the fields of a document -/

/-- Two definitions merged declare the fields of both. -/
theorem fields_mergedWith? (h : a.mergedWith? b = some both) :
    both.fields = a.fields ++ b.fields := by
  unfold Definition.mergedWith? at h
  split at h
  · rename_i name directives interfaces fields _ name' directives' interfaces' fields'
    by_cases hname : name = name'
    · rw [if_pos hname] at h
      cases h
      subst hname
      exact List.map_append
    · rw [if_neg hname] at h
      cases h
  · cases h

theorem fields_mergeInto (merged : List Definition) (addition : Definition) :
    ((mergeInto merged addition).flatMap Definition.fields).Perm
      (merged.flatMap Definition.fields ++ addition.fields) := by
  induction merged with
  | nil => simp [mergeInto]
  | cons current others ih =>
    unfold mergeInto
    cases h : current.mergedWith? addition with
    | none =>
      simp only [List.flatMap_cons, List.append_assoc]
      exact ih.append_left current.fields
    | some both =>
      -- the added fields come before those of the definitions behind
      simp only [List.flatMap_cons, fields_mergedWith? h, List.append_assoc]
      exact List.perm_append_comm.append_left current.fields

/-- A merge permutes the fields of a definition list. -/
theorem fields_mergeDefinitions (definitions : List Definition) :
    ((mergeDefinitions definitions).flatMap Definition.fields).Perm
      (definitions.flatMap Definition.fields) := by
  have hfold : ∀ (ds merged : List Definition),
      ((ds.foldl mergeInto merged).flatMap Definition.fields).Perm
        (merged.flatMap Definition.fields ++ ds.flatMap Definition.fields) := by
    intro ds
    induction ds with
    | nil => intro merged; simp
    | cons d ds ih =>
      intro merged
      rw [List.foldl_cons, List.flatMap_cons, ← List.append_assoc]
      exact (ih (mergeInto merged d)).trans ((fields_mergeInto merged d).append_right _)
  exact hfold definitions []

/-- The findings of a merged document are those of its parts, in another order. -/
theorem findings_merged (documents : List Document) (directive : String) :
    (findings (Document.merged documents) directive).Perm
      (documents.flatMap (findings · directive)) := by
  have hfields : (Document.merged documents).fields.Perm (documents.flatMap Document.fields) := by
    refine (fields_mergeDefinitions _).trans (.of_eq ?_)
    rw [List.flatMap_assoc]
    rfl
  unfold findings
  rw [← List.filterMap_flatMap]
  exact hfields.filterMap _

/-! ## Merging and scanning -/

/-- A scan succeeds exactly if every finding does. -/
theorem scan_succeeds_iff_findings (document : Document) (directive : String) :
    (∃ result, scan document directive = .ok result) ↔
      ∀ finding ∈ findings document directive, ∃ binding, finding = .ok binding := by
  rw [scan_succeeds_iff, findings_eq, List.forall_mem_map]
  exact forall₂_congr fun p _ => finding_isOk.symm

/-- A scan of the parts of a schema, one after the other. -/
theorem scan_parts {documents : List Document} {directive : String}
    (h : ∀ document ∈ documents, ∃ result, scan document directive = .ok result) :
    ∃ results, documents.mapM (scan · directive) = .ok results ∧
      results.map (·.document) = documents.map (·.mapFields (·.withoutDirective directive)) ∧
      (results.flatMap (·.bindings)).map .ok = documents.flatMap (findings · directive) := by
  induction documents with
  | nil => exact ⟨[], rfl, rfl, rfl⟩
  | cons d ds ih =>
    obtain ⟨result, hresult⟩ := h d List.mem_cons_self
    obtain ⟨results, hresults, hdocuments, hbindings⟩ :=
      ih fun document hd => h document (List.mem_cons_of_mem d hd)
    obtain ⟨hfindings, hdocument, -⟩ := scan_eq_ok.mp hresult
    refine ⟨result :: results, ?_, ?_, ?_⟩
    · rw [List.mapM_cons, hresult, hresults]
      rfl
    · rw [List.map_cons, List.map_cons, hdocument, hdocuments]
    · rw [List.flatMap_cons, List.map_append, hbindings, List.flatMap_cons, hfindings]

/-- **Merging and scanning commute.** The merged schema of fragments can be scanned exactly if every
fragment can. What the scan leaves of it is then the merge of what the scans leave of the fragments, and
its bindings are theirs, in another order. -/
theorem scan_merged_fragments (fragments : List SchemaFragment) (documents : List Document)
    (directive : String) (h : SchemaFragment.parseAll fragments = .ok documents) :
    mergeFragments fragments = .ok (Document.merged documents).print ∧
    ((∃ result, scan (Document.merged documents) directive = .ok result) ↔
      ∀ document ∈ documents, ∃ result, scan document directive = .ok result) ∧
    (∀ result, scan (Document.merged documents) directive = .ok result →
      ∃ results, documents.mapM (scan · directive) = .ok results ∧
        result.document = Document.merged (results.map (·.document)) ∧
        result.bindings.Perm (results.flatMap (·.bindings))) := by
  have hsucceeds : (∃ result, scan (Document.merged documents) directive = .ok result) ↔
      ∀ document ∈ documents, ∃ result, scan document directive = .ok result := by
    simp only [scan_succeeds_iff_findings, (findings_merged documents directive).mem_iff,
      List.mem_flatMap]
    exact ⟨fun h d hd finding hf => h finding ⟨d, hd, hf⟩,
      fun h finding ⟨d, hd, hf⟩ => h d hd finding hf⟩
  refine ⟨by rw [mergeFragments, h]; rfl, hsucceeds, fun result hresult => ?_⟩
  obtain ⟨results, hresults, hdocuments, hbindings⟩ :=
    scan_parts (hsucceeds.mp ⟨result, hresult⟩)
  obtain ⟨hfindings, hdocument, -⟩ := scan_eq_ok.mp hresult
  refine ⟨results, hresults, ?_, ?_⟩
  -- stripping goes through the merge, and through the definition lists of the parts
  · have hdefinitions : (results.map (·.document)).flatMap (·.definitions)
        = (documents.flatMap (·.definitions)).map
            (·.mapFields (·.withoutDirective directive)) := by
      rw [hdocuments, List.flatMap_map, List.map_flatMap]
      rfl
    rw [hdocument]
    show Document.mk _ = Document.mk (mergeDefinitions _)
    rw [hdefinitions, mergeDefinitions_map_mapFields]
    rfl
  -- the findings are permuted; the bindings are the findings without `ok`
  · have hperm : (result.bindings.map Except.ok).Perm
        ((results.flatMap (·.bindings)).map (.ok : Binding → Except LocalizedError Binding)) := by
      rw [← hfindings, hbindings]
      exact findings_merged documents directive
    exact (List.map_perm_map_iff fun _ _ h => Except.ok.inj h).mp hperm

theorem scan_merged_fragments_owner : ∃ fragments documents result,
    fragments = [
      ⟨.ofString "a.graphql", "type A \x7b f: Int @AWSLambda(handler: \"f\") \x7d type B \x7b g: Int \x7d"⟩,
      ⟨.ofString "b.graphql", "type A @AWSLambda \x7b h: Int @AWSLambda(handler: \"h\") \x7d"⟩] ∧
    SchemaFragment.parseAll fragments = .ok documents ∧
    scan (Document.merged documents) "AWSLambda" = .ok result ∧
    ∃ results, documents.mapM (scan · "AWSLambda") = .ok results ∧
      result.document = Document.merged (results.map (·.document)) ∧
      result.bindings.Perm (results.flatMap (·.bindings)) := by
  obtain ⟨fragments, hfragments⟩ : ∃ fragments : List SchemaFragment, fragments = [
      ⟨.ofString "a.graphql", "type A \x7b f: Int @AWSLambda(handler: \"f\") \x7d type B \x7b g: Int \x7d"⟩,
      ⟨.ofString "b.graphql", "type A @AWSLambda \x7b h: Int @AWSLambda(handler: \"h\") \x7d"⟩] := ⟨_, rfl⟩
  have hruns : (match SchemaFragment.parseAll fragments with
      | .ok documents => (scan (Document.merged documents) "AWSLambda").toBool
      | .error _ => false) = true := by
    rw [hfragments]
    decide +kernel
  split at hruns
  · rename_i documents hdocuments
    cases hresult : scan (Document.merged documents) "AWSLambda" with
    | error e =>
      rw [hresult] at hruns
      cases hruns
    | ok result =>
      exact ⟨fragments, documents, result, hfragments, hdocuments, hresult,
        (scan_merged_fragments fragments documents "AWSLambda" hdocuments).2.2 result hresult⟩
  · cases hruns

end ResolverWiring
