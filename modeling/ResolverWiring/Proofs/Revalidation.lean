import ResolverWiring.Proofs.Graphql.Schema
import ResolverWiring.Proofs.Validation

/-!
# `Proofs.Revalidation` — a valid schema stays valid

The clean text of a separable schema is parsed as the document that a scan leaves: the document of the schema with
the directive taken off its fields. The definitions that AppSync adds to it are those that it adds to the document of
the schema (`Document.withAppSync_mapFields`). Neither the rules, nor building, nor the check of the schema that is
built find anything in it that they have not found before (`Document.check_withoutDirective`), so a valid schema has a
valid clean text (`validateSchema_cleanText`).

A schema that is not separable can lose its validity: a type without braces takes those of a query that is printed
as its selection set, which it did not in the schema (`validateSchema_cleanText_lost`).
-/

namespace ResolverWiring

open Graphql

variable {text directive : String} {document : Document} {extraction : Extraction}
  {field : FieldDef → FieldDef}

/-! ## Documents with the definitions of AppSync -/

theorem declaredName?_mapFields (d : Definition) : (d.mapFields field).declaredName? = d.declaredName? := by
  cases d <;> rfl

/-- The definitions of AppSync have no fields. -/
theorem mapFields_of_mem_appSyncDefinitions {d : Definition} (h : d ∈ appSyncDefinitions) :
    d.mapFields field = d := by
  rcases List.mem_append.mp h with hscalar | hdirective
  · obtain ⟨name, -, rfl⟩ := List.mem_map.mp hscalar
    rfl
  · obtain ⟨definition, hdefinition, rfl⟩ := List.mem_map.mp hdirective
    simp only [appSyncDirectives, List.mem_cons, List.not_mem_nil, or_false] at hdefinition
    rcases hdefinition with rfl | rfl | rfl | rfl | rfl | rfl | rfl <;> rfl

theorem Document.withAppSync_mapFields (field : FieldDef → FieldDef) (document : Document) :
    (document.mapFields field).withAppSync = document.withAppSync.mapFields field := by
  have hdeclared : (document.definitions.map (·.mapFields field)).filterMap Definition.declaredName?
      = document.definitions.filterMap Definition.declaredName? := by
    rw [List.filterMap_map]
    exact List.filterMap_congr fun d _ => declaredName?_mapFields d
  have hprovided : ∀ keep : Definition → Bool,
      (appSyncDefinitions.filter keep).map (·.mapFields field) = appSyncDefinitions.filter keep := by
    intro keep
    refine (List.map_congr_left fun d hd => ?_).trans (List.map_id _)
    exact mapFields_of_mem_appSyncDefinitions (List.mem_of_mem_filter hd)
  simp only [Document.withAppSync, Document.mapFields, hdeclared, List.map_append, hprovided]

/-- **Nothing is wrong with a document whose fields lose a directive** if nothing was wrong with the document. -/
theorem Document.check_withoutDirective (directive : String) (h : document.check = .ok []) :
    (document.mapFields (·.withoutDirective directive)).check = .ok [] := by
  obtain ⟨hrules, hbuild, hschema⟩ := Document.check_eq_nil.mp h
  rw [Document.check_eq_nil, Document.withAppSync_mapFields, Schema.ofDocument_mapFields]
  refine ⟨Document.problems_withoutDirective hrules, Schema.buildFault?_withoutDirective hbuild, ?_⟩
  rw [Schema.problems_withoutDirective, hschema]

/-! ## Clean texts -/

/-- The clean text of a separable schema is parsed as its document without the directive on fields. -/
theorem parse_cleanText_of_separable (hparse : Document.parse text = .ok document)
    (h : extract text directive = .ok extraction) (hseparable : document.Separable) :
    Document.parse extraction.cleanText = .ok (document.mapFields (·.withoutDirective directive)) := by
  obtain ⟨document', result, hparse', hscan, rfl⟩ := extract_eq_ok.mp h
  obtain rfl : document = document' := Except.ok.inj (hparse.symm.trans hparse')
  have hstripped := (scan_eq_ok.mp hscan).2.1
  have hwf : result.document.WellFormed StringLiteral.IsRead := scan_wellFormed hscan (parse_isRead hparse)
  have hkept : result.document.Separable := by rwa [hstripped, separable_mapFields]
  rw [← hstripped]
  exact Document.parse_print_of_separable hwf hkept

/-- **Stripping keeps a schema valid.** When a schema is valid and no definition of it without braces stands in
front of a query that is written as a selection set alone, its clean text is valid, whichever directive is taken
off the fields. -/
theorem validateSchema_cleanText (hvalid : validateSchema text = .ok ())
    (h : extract text directive = .ok extraction)
    (hseparable : ∀ document, Document.parse text = .ok document → document.Separable) :
    validateSchema extraction.cleanText = .ok () := by
  obtain ⟨document, hparse, hcheck⟩ := validateSchema_eq_ok.mp hvalid
  have hclean := parse_cleanText_of_separable hparse h (hseparable document hparse)
  exact validateSchema_eq_ok.mpr ⟨_, hclean, Document.check_withoutDirective directive hcheck⟩

/-- A schema that defines the directive and uses it. -/
def wiredQuery : String :=
  "directive @AWSLambda(handler: String!) on FIELD_DEFINITION\n"
    ++ "type Query \x7b a: AWSDate @AWSLambda(handler: \"h\") @deprecated \x7d"

def wiredExtraction : Extraction :=
  ⟨[⟨"Query", "a", "h"⟩], "directive @AWSLambda(handler: String!) on FIELD_DEFINITION\n\n"
    ++ "type Query \x7b\n  a: AWSDate @deprecated\n\x7d"⟩

theorem parse_wiredQuery : Document.parse wiredQuery = .ok
    ⟨[.directive ⟨none, "AWSLambda", [⟨none, "handler", .named "String" true, none, []⟩], false, [.fieldDefinition]⟩,
      .type none ⟨"Query", [], .object [] [⟨none, "a", [], .named "AWSDate" false,
        [⟨"AWSLambda", [⟨"handler", .string ⟨"h", false⟩⟩]⟩, ⟨"deprecated", []⟩]⟩]⟩]⟩ := by
  have htokens : tokens wiredQuery.toList = [.name "directive", .punctuator .atSign, .name "AWSLambda",
      .punctuator .parenOpen, .name "handler", .punctuator .colon, .name "String", .punctuator .bang,
      .punctuator .parenClose, .name "on", .name "FIELD_DEFINITION", .name "type", .name "Query",
      .punctuator .braceOpen, .name "a", .punctuator .colon, .name "AWSDate", .punctuator .atSign,
      .name "AWSLambda", .punctuator .parenOpen, .name "handler", .punctuator .colon, .string ⟨"h", false⟩,
      .punctuator .parenClose, .punctuator .atSign, .name "deprecated", .punctuator .braceClose, .endOfInput] := by
    have hcharacters : wiredQuery.toList = _ ++ _ :=
      String.toList_append.trans (congrArg₂ _ String.toList_ofList String.toList_ofList)
    rw [hcharacters]
    decide +kernel
  exact Parser.parseText_of_tokens htokens (by cbv)

theorem validateSchema_cleanText_query : validateSchema wiredQuery = .ok () ∧
    extract wiredQuery lambdaDirective = .ok wiredExtraction ∧
    (∀ document, Document.parse wiredQuery = .ok document → document.Separable) ∧
    validateSchema wiredExtraction.cleanText = .ok () := by
  have hvalid : validateSchema wiredQuery = .ok () := validateSchema_of_isOk (by
    rw [validateSchema, parse_wiredQuery]
    decide +kernel)
  have hextract : extract wiredQuery lambdaDirective = .ok wiredExtraction := by
    rw [extract, parse_wiredQuery]
    decide +kernel
  have hseparable : ∀ document, Document.parse wiredQuery = .ok document → document.Separable := by
    intro document hparse
    cases parse_wiredQuery.symm.trans hparse
    decide
  exact ⟨hvalid, hextract, hseparable, validateSchema_cleanText hvalid hextract hseparable⟩

/-- A valid schema whose clean text is not valid: the type takes the braces of the query, and `a` is no field. -/
theorem validateSchema_cleanText_lost : ∃ text extraction, validateSchema text = .ok () ∧
    extract text lambdaDirective = .ok extraction ∧ validateSchema extraction.cleanText ≠ .ok () := by
  refine ⟨"type Query query \x7b a \x7d extend type Query \x7b x: Int \x7d",
    ⟨[], "type Query\n\n\x7b\n  a\n\x7d\n\nextend type Query \x7b\n  x: Int\n\x7d"⟩,
    validateSchema_of_isOk ?_, by cbv, fun hvalid => ?_⟩
  · rw [validateSchema, Document.parse, Parser.parseText_ofList]
    decide +kernel
  have hfails : (validateSchema
      "type Query\n\n\x7b\n  a\n\x7d\n\nextend type Query \x7b\n  x: Int\n\x7d").isOk = false := by
    rw [validateSchema, Document.parse, Parser.parseText_ofList]
    decide +kernel
  rw [hvalid] at hfails
  cases hfails

end ResolverWiring
