import ResolverWiring.Proofs.Graphql.Rules
import ResolverWiring.Proofs.ScanSeries
import ResolverWiring.Proofs.Service.Stops
import ResolverWiring.Proofs.Validation

/-!
# `Proofs.DistinctFields` — a valid service has one binding for a field

The rules for documents look at all blocks of a type, definitions and extensions alike, and complain about a field
that is declared twice. So the fields of a document without problems have distinct keys (`nodup_fieldKeys`): a
key is the name of a type with the name of a field of it.

A scan and the merging of fragments keep fields that are declared twice. But the clean text declares every field
that the schema declares, whatever else it is parsed as (`Absorbs.fieldKeys_sublist`). So when it is valid, the
bindings, which are those of some of the fields, have distinct keys too.
-/

namespace ResolverWiring.Graphql

variable {before definitions result : List Definition} {v : Vocabulary}

/-! ## The keys of fields -/

/-- The keys of the fields in a block of a type. -/
def TypeDecl.keys (decl : TypeDecl) : List (String × String) :=
  decl.body.fieldNames.map (decl.name, ·)

/-- The keys of the fields in all blocks of types among definitions, in order. -/
def fieldKeys (definitions : List Definition) : List (String × String) :=
  (definitions.filterMap Definition.typeBlock?).flatMap TypeDecl.keys

theorem fieldKeys_append (definitions others : List Definition) :
    fieldKeys (definitions ++ others) = fieldKeys definitions ++ fieldKeys others := by
  rw [fieldKeys, List.filterMap_append, List.flatMap_append]
  rfl

theorem fieldKeys_cons (d : Definition) (others : List Definition) :
    fieldKeys (d :: others) = fieldKeys [d] ++ fieldKeys others := fieldKeys_append [d] others

theorem mem_fieldKeys {type field : String} :
    (type, field) ∈ fieldKeys definitions ↔
      field ∈ (blocksOf definitions type).flatMap (·.body.fieldNames) := by
  simp only [fieldKeys, TypeDecl.keys, blocksOf, List.mem_flatMap, List.mem_map, List.mem_filter,
    beq_iff_eq, Prod.mk.injEq]
  constructor
  · rintro ⟨decl, hdecl, name, hname, rfl, rfl⟩
    exact ⟨decl, ⟨hdecl, rfl⟩, hname⟩
  · rintro ⟨decl, ⟨hdecl, rfl⟩, hname⟩
    exact ⟨decl, hdecl, field, hname, rfl, rfl⟩

/-! ## The rules -/

theorem TypeDecl.nodup_fieldKeys {decl : TypeDecl} (hbefore : (fieldKeys before).Nodup)
    (h : decl.repeatedProblems before = []) : (fieldKeys before ++ decl.keys).Nodup := by
  simp only [repeatedProblems, List.append_eq_nil_iff, List.map_eq_nil_iff] at h
  obtain ⟨hnodup, hnew⟩ := repetitions_eq_nil.mp h.1.2
  refine List.nodup_append.mpr ⟨hbefore, hnodup.map fun _ _ => (Prod.mk.inj · |>.2), ?_⟩
  rintro key hkey _ hmem rfl
  obtain ⟨field, hfield, rfl⟩ := List.mem_map.mp hmem
  exact hnew field hfield (mem_fieldKeys.mp hkey)

theorem Definition.nodup_fieldKeys {d : Definition} (hbefore : (fieldKeys before).Nodup)
    (h : d.problems v before = []) : (fieldKeys (before ++ [d])).Nodup := by
  rw [fieldKeys_append]
  cases d with
  | type description decl =>
    simp only [problems, List.append_eq_nil_iff] at h
    have hkeys : fieldKeys [.type description decl] = decl.keys := List.append_nil _
    rw [hkeys]
    exact TypeDecl.nodup_fieldKeys hbefore h.1.1.2
  | extendType decl =>
    simp only [problems, List.append_eq_nil_iff] at h
    have hkeys : fieldKeys [.extendType decl] = decl.keys := List.append_nil _
    rw [hkeys]
    exact TypeDecl.nodup_fieldKeys hbefore h.1.1.1
  | _ =>
    refine (List.append_nil _).symm ▸ ?_
    exact hbefore

theorem nodup_fieldKeys (hbefore : (fieldKeys before).Nodup)
    (h : definitionsProblems v before definitions = []) : (fieldKeys (before ++ definitions)).Nodup := by
  induction definitions generalizing before with
  | nil => rwa [List.append_nil]
  | cons d definitions ih =>
    rw [definitionsProblems, List.append_eq_nil_iff] at h
    rw [List.append_cons]
    exact ih (Definition.nodup_fieldKeys hbefore h.1) h.2

/-! ## Fields that are printed and read again -/

/-- A definition that takes braces behind it loses none of its fields, since it has none. -/
theorem Absorbs.fieldKeys_sublist (h : Absorbs definitions result) :
    (fieldKeys definitions).Sublist (fieldKeys result) := by
  induction h with
  | nil => exact List.Sublist.refl _
  | @keep d definitions result _ ih =>
    rw [fieldKeys_cons d definitions, fieldKeys_cons d result]
    exact (List.Sublist.refl _).append ih
  | @take d d' o definitions result hlacks _ _ _ ih =>
    have hnone : fieldKeys [d] = [] := by
      have hbody : ∀ body : TypeBody, body.lacksBraces = true → body.fieldNames = [] := by
        intro body hlacks
        cases body with
        | scalar => rfl
        | union members => rfl
        | enum values => rfl
        -- a body with fields would have braces
        | _ => exact List.map_eq_nil_iff.mpr (List.isEmpty_iff.mp hlacks)
      cases d with
      | type description decl =>
        exact congrArg (fun names : List String => names.map (decl.name, ·) ++ []) (hbody decl.body hlacks)
      | extendType decl =>
        exact congrArg (fun names : List String => names.map (decl.name, ·) ++ []) (hbody decl.body hlacks)
      | _ => rfl
    rw [fieldKeys_cons d (.operation o :: definitions), hnone, fieldKeys_cons d' result]
    exact ih.trans (List.sublist_append_right _ _)

/-- The keys of the fields of object and interface types are among those of all fields. -/
theorem Document.fields_sublist (d : Document) :
    (d.fields.map fun p => (p.1, p.2.name)).Sublist (fieldKeys d.definitions) := by
  obtain ⟨definitions⟩ := d
  have hdecl : ∀ decl : TypeDecl, ((decl.body.outputFields.map (decl.name, ·)).map fun p => (p.1, p.2.name)).Sublist
      decl.keys := by
    intro decl
    have hsame : ∀ fields : List FieldDef,
        (fields.map (decl.name, ·)).map (fun p => (p.1, p.2.name)) = (fields.map (·.name)).map (decl.name, ·) := by
      intro fields
      rw [List.map_map, List.map_map]
      rfl
    rw [TypeDecl.keys]
    cases decl.body with
    | object interfaces fields => exact (hsame fields) ▸ List.Sublist.refl _
    | interface interfaces fields => exact (hsame fields) ▸ List.Sublist.refl _
    | _ => exact List.nil_sublist _
  induction definitions with
  | nil => exact List.Sublist.refl _
  | cons d definitions ih =>
    have hd : (d.fields.map fun p => (p.1, p.2.name)).Sublist (fieldKeys [d]) := by
      cases d with
      | type description decl =>
        refine (hdecl decl).trans ?_
        exact List.sublist_append_left _ []
      | extendType decl =>
        refine (hdecl decl).trans ?_
        exact List.sublist_append_left _ []
      | _ => exact List.Sublist.refl _
    rw [Document.fields, List.flatMap_cons, List.map_append, fieldKeys_cons]
    exact hd.append ih

end ResolverWiring.Graphql

namespace ResolverWiring

open Graphql

variable {text directive : String} {extraction : Extraction} {settings : Settings} {world : World}

/-! ## Bindings -/

/-- The fields of a valid document have distinct keys. -/
theorem nodup_of_check {document : Document} (h : document.check = .ok []) :
    (fieldKeys document.definitions).Nodup := by
  have hnodup : (fieldKeys ([] ++ document.withAppSync.definitions)).Nodup :=
    nodup_fieldKeys List.nodup_nil (Document.check_eq_nil.mp h).1
  rw [List.nil_append, Document.withAppSync, fieldKeys_append] at hnodup
  exact hnodup.of_append_right

/-- The keys of bindings are those of some fields of the scanned document, in order. -/
theorem scan_keys_sublist {document : Document} {scanned : ScanResult}
    (h : scan document directive = .ok scanned) :
    (scanned.bindings.map fun b => (b.parentType, b.fieldName)).Sublist
      (fieldKeys scanned.document.definitions) := by
  have hbindings : (scanned.bindings.map fun b => (b.parentType, b.fieldName))
      = (document.annotated directive).map fun p => (p.1, p.2.name) := by
    rw [← List.forall₂_eq_eq_eq, List.forall₂_map_left_iff, List.forall₂_map_right_iff]
    exact (scan_bindings h).flip.imp fun b p hb => Prod.ext hb.1 hb.2.1
  -- a scan leaves every field its name
  have hfields : (scanned.document.fields.map fun p => (p.1, p.2.name))
      = document.fields.map fun p => (p.1, p.2.name) := by
    rw [(scan_eq_ok.mp h).2.1, fields_mapFields, List.map_map]
    rfl
  rw [hbindings, annotated_eq_filter]
  refine List.Sublist.trans ?_ scanned.document.fields_sublist
  rw [hfields]
  exact List.filter_sublist.map _

/-- The bindings of a schema have distinct keys if its clean text is valid. -/
theorem nodup_of_valid_cleanText (h : extract text directive = .ok extraction)
    (hvalid : validateSchema extraction.cleanText = .ok ()) :
    (extraction.bindings.map fun b => (b.parentType, b.fieldName)).Nodup := by
  obtain ⟨document, scanned, hparse, hscan, rfl⟩ := extract_eq_ok.mp h
  obtain ⟨clean, hclean, hcheck⟩ := validateSchema_eq_ok.mp hvalid
  have hwf : scanned.document.WellFormed StringLiteral.IsRead := scan_wellFormed hscan (parse_isRead hparse)
  have hprinted := (Document.parse_print_absorbs hwf hclean).fieldKeys_sublist
  exact (nodup_of_check hcheck).sublist ((scan_keys_sublist hscan).trans hprinted)

/-! ## Services -/

theorem extractService_eq_ok (h : (extractService settings world).1 = .ok extraction) :
    ∃ text, extract text lambdaDirective = .ok extraction := by
  obtain ⟨text, between, hload, hrun⟩ := Run.bind_eq_ok (Prod.ext h rfl)
  rw [Run.report_then] at hrun
  exact ⟨text, (Run.ofResult_eq_ok hrun).1⟩

/-- **A valid service has one binding for a field.** If the schema of a service is valid, its bindings are those
of distinct fields of distinct types. -/
theorem validateService_binds_once (h : (validateService settings world).1 = .ok ()) :
    ∃ extraction, (extractService settings world).1 = .ok extraction ∧
      (extraction.bindings.map fun b => (b.parentType, b.fieldName)).Nodup := by
  obtain ⟨extraction, hextract, hvalid⟩ := validateService_eq_ok.mp h
  obtain ⟨text, htext⟩ := extractService_eq_ok hextract
  exact ⟨extraction, hextract, nodup_of_valid_cleanText htext hvalid⟩

theorem validateService_binds_once_query :
    (validateService (settingsOf ⟨.file, ⟨.single, ["whole.graphql"]⟩⟩) (inTwoParts annotatedQuery "" "")).1
      = .ok () ∧
    ∃ extraction, (extractService (settingsOf ⟨.file, ⟨.single, ["whole.graphql"]⟩⟩)
        (inTwoParts annotatedQuery "" "")).1 = .ok extraction ∧
      (extraction.bindings.map fun b => (b.parentType, b.fieldName)).Nodup := by
  have hlines : '\r' ∉ annotatedQuery.toList := by
    rw [toList_annotatedQuery, List.mem_append, String.toList_ofList, String.toList_ofList]
    decide
  have hread : (readSchemaFile ⟨.single, ["whole.graphql"]⟩ (inTwoParts annotatedQuery "" "")).1
      = .ok annotatedQuery := readSchemaFile_inTwoParts "" "" hlines
  have hload : (loadSchema ⟨.file, ⟨.single, ["whole.graphql"]⟩⟩ (inTwoParts annotatedQuery "" "")).1
      = .ok annotatedQuery := by
    rw [loadSchema_file rfl]
    exact hread
  have hvalid : (validateService (settingsOf ⟨.file, ⟨.single, ["whole.graphql"]⟩⟩)
      (inTwoParts annotatedQuery "" "")).1 = .ok () := by
    refine validateService_eq_ok.mpr ⟨queryExtraction, ?_, validateSchema_queryExtraction⟩
    rw [extractService_of_load hload, extract_annotatedQuery]
    rfl
  exact ⟨hvalid, validateService_binds_once hvalid⟩

end ResolverWiring
