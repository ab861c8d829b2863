import ResolverWiring.Proofs.Extract
import ResolverWiring.Proofs.Graphql.Absorption
import ResolverWiring.Proofs.Graphql.Rules
import ResolverWiring.Schema.Validation

/-!
# `Proofs.Validation` — what is known of a valid clean text

A schema text is valid if its document, with the definitions of AppSync in front of it, has no problems
(`validateSchema_eq_ok`). A scan leaves the directive wherever it does not stand on a field, and no clean text
that uses a directive without a definition is valid. So when the clean text of a schema is valid, the scan has
found every use of the directive (`valid_cleanText_unannotated`).
-/

namespace ResolverWiring

open Graphql

variable {text directive : String} {document : Document} {extraction : Extraction}

/-! ## Valid texts -/

theorem Document.check_eq_nil : document.check = .ok [] ↔ document.withAppSync.problems = [] ∧
    (Schema.ofDocument document.withAppSync).buildFault? = none ∧
    (Schema.ofDocument document.withAppSync).problems = [] := by
  unfold Document.check
  dsimp only
  cases document.withAppSync.problems with
  | cons problem others => simp
  | nil =>
    cases (Schema.ofDocument document.withAppSync).buildFault? with
    | some fault => simp
    | none => simp

theorem validateSchema_of_parse (h : Document.parse text = .ok document) :
    validateSchema text = .ok () ↔ document.check = .ok [] := by
  simp only [validateSchema, h, Except.mapError, bind, Except.bind]
  cases document.check with
  | error fault => simp [throw, throwThe, MonadExceptOf.throw]
  | ok messages => cases messages <;> simp [throw, throwThe, MonadExceptOf.throw, pure, Except.pure]

theorem validateSchema_eq_ok : validateSchema text = .ok () ↔
    ∃ document, Document.parse text = .ok document ∧ document.check = .ok [] := by
  constructor
  · intro h
    cases hparse : Document.parse text with
    | error fault =>
      rw [validateSchema, hparse] at h
      cases h
    | ok document => exact ⟨document, rfl, (validateSchema_of_parse hparse).mp h⟩
  · rintro ⟨document, hparse, hcheck⟩
    exact (validateSchema_of_parse hparse).mpr hcheck

/-- The check of a text can be run. -/
theorem validateSchema_of_isOk (h : (validateSchema text).isOk = true) : validateSchema text = .ok () := by
  cases hvalid : validateSchema text with
  | ok u => rfl
  | error e =>
    rw [hvalid] at h
    cases h

/-! ## Directives without a definition -/

theorem Graphql.Vocabulary.name_of_directive? {v : Vocabulary} {name : String} {definition : DirectiveDef}
    (h : v.directive? name = some definition) :
    definition.name = name ∧ (definition ∈ v.directives ∨ definition ∈ builtInDirectives) := by
  have hname := List.find?_some h
  refine ⟨eq_of_beq hname, ?_⟩
  simpa using List.mem_of_find?_eq_some h

/-- The directives that a document defines together with AppSync. -/
theorem mem_directiveDefs_withAppSync {definition : DirectiveDef}
    (h : definition ∈ directiveDefs document.withAppSync.definitions) :
    definition ∈ appSyncDirectives ∨ definition ∈ directiveDefs document.definitions := by
  rw [Document.withAppSync, directiveDefs_append, List.mem_append] at h
  refine h.imp_left fun hprovided => ?_
  obtain ⟨provided, hmem, hdefinition⟩ := List.mem_filterMap.mp hprovided
  have hmem := List.mem_of_mem_filter hmem
  rcases List.mem_append.mp hmem with hscalar | hdirective
  · obtain ⟨name, -, rfl⟩ := List.mem_map.mp hscalar
    cases hdefinition
  · obtain ⟨d, hd, rfl⟩ := List.mem_map.mp hdirective
    cases hdefinition
    exact hd

/-- Whether a name is that of a directive of the language or of AppSync. -/
def IsProvided (directive : String) : Prop :=
  ∃ definition ∈ appSyncDirectives ++ builtInDirectives, definition.name = directive

theorem not_isProvided_lambdaDirective : ¬ IsProvided lambdaDirective := by
  have hnone : ((appSyncDirectives ++ builtInDirectives).map (·.name)).contains lambdaDirective = false := by
    decide
  rintro ⟨definition, hmem, hname⟩
  rw [List.contains_iff_mem.mpr (hname ▸ List.mem_map_of_mem hmem)] at hnone
  cases hnone

/-- A valid document uses no directive that nobody defines. -/
theorem not_used_of_check (hvalid : document.check = .ok []) (hforeign : ¬ IsProvided directive)
    (hundefined : ∀ d ∈ directiveDefs document.definitions, d.name ≠ directive) :
    directive ∉ useNames document.uses := by
  intro hmem
  obtain ⟨use, huse, hname⟩ := List.mem_map.mp hmem
  -- the document is checked together with definitions of AppSync
  have huse' : use ∈ document.withAppSync.uses := by
    rw [Document.withAppSync, Document.uses, List.flatMap_append]
    exact List.mem_append_right _ huse
  obtain ⟨definition, hdefinition⟩ :=
    Document.isDefined_of_mem_uses (Document.check_eq_nil.mp hvalid).1 use huse'
  obtain ⟨hsame, hwhere⟩ := Vocabulary.name_of_directive? hdefinition
  rw [hname] at hsame
  rcases hwhere with hdeclared | hlanguage
  · rcases mem_directiveDefs_withAppSync hdeclared with hservice | hown
    · exact hforeign ⟨definition, List.mem_append_left _ hservice, hsame⟩
    · exact hundefined definition hown hsame
  · exact hforeign ⟨definition, List.mem_append_right _ hlanguage, hsame⟩

/-! ## Uses that a scan leaves -/

theorem FieldDef.mem_uses_withoutDirective (directive : String) {field : FieldDef} {use : DirectiveUse} (h : use ∈ field.uses) :
    use ∈ (field.withoutDirective directive).uses ∨
      use.location = .fieldDefinition ∧ use.directive ∈ field.directives := by
  rcases List.mem_append.mp h with hargument | hown
  · exact .inl (List.mem_append_left _ hargument)
  · obtain ⟨d, hd, rfl⟩ := List.mem_map.mp hown
    exact .inr ⟨rfl, hd⟩

theorem TypeBody.mem_uses_mapFields (directive : String) {body : TypeBody} {use : DirectiveUse} (h : use ∈ body.uses) :
    use ∈ (body.mapFields (·.withoutDirective directive)).uses ∨
      ∃ field ∈ body.outputFields, use.location = .fieldDefinition ∧ use.directive ∈ field.directives := by
  have hfields : ∀ fields : List FieldDef, use ∈ fields.flatMap FieldDef.uses →
      use ∈ (fields.map (·.withoutDirective directive)).flatMap FieldDef.uses ∨
        ∃ field ∈ fields, use.location = .fieldDefinition ∧ use.directive ∈ field.directives := by
    intro fields hmem
    obtain ⟨field, hfield, huse⟩ := List.mem_flatMap.mp hmem
    rcases FieldDef.mem_uses_withoutDirective directive huse with hleft | hfound
    · exact .inl (List.mem_flatMap.mpr ⟨_, List.mem_map_of_mem hfield, hleft⟩)
    · exact .inr ⟨field, hfield, hfound⟩
  cases body with
  | object interfaces fields => exact hfields fields h
  | interface interfaces fields => exact hfields fields h
  | _ => exact .inl h

theorem TypeDecl.mem_uses_mapFields (directive : String) {decl : TypeDecl} {use : DirectiveUse} (h : use ∈ decl.uses) :
    use ∈ { decl with body := decl.body.mapFields (·.withoutDirective directive) }.uses ∨
      ∃ field ∈ decl.body.outputFields,
        use.location = .fieldDefinition ∧ use.directive ∈ field.directives := by
  obtain ⟨name, directives, body⟩ := decl
  have hsort : (body.mapFields (·.withoutDirective directive)).sort = body.sort := by cases body <;> rfl
  rcases List.mem_append.mp h with hown | hbody
  · refine .inl (List.mem_append_left _ ?_)
    rw [hsort]
    exact hown
  · exact (TypeBody.mem_uses_mapFields directive hbody).imp_left (List.mem_append_right _)

theorem Definition.mem_uses_mapFields (directive : String) {d : Definition} {use : DirectiveUse} (h : use ∈ d.uses) :
    use ∈ (d.mapFields (·.withoutDirective directive)).uses ∨
      ∃ p ∈ d.fields, use.location = .fieldDefinition ∧ use.directive ∈ p.2.directives := by
  have hdecl : ∀ decl : TypeDecl, use ∈ decl.uses →
      use ∈ { decl with body := decl.body.mapFields (·.withoutDirective directive) }.uses ∨
        ∃ p ∈ decl.body.outputFields.map (decl.name, ·),
          use.location = .fieldDefinition ∧ use.directive ∈ p.2.directives := by
    intro decl hmem
    refine (TypeDecl.mem_uses_mapFields directive hmem).imp_right ?_
    rintro ⟨field, hfield, hfound⟩
    exact ⟨_, List.mem_map_of_mem hfield, hfound⟩
  cases d with
  | type description decl => exact hdecl decl h
  | extendType decl => exact hdecl decl h
  | _ => exact .inl h

/-- A use that a scan does not leave stands on a field. -/
theorem Document.mem_uses_mapFields (directive : String) {use : DirectiveUse} (h : use ∈ document.uses) :
    use ∈ (document.mapFields (·.withoutDirective directive)).uses ∨
      ∃ p ∈ document.fields, use.location = .fieldDefinition ∧ use.directive ∈ p.2.directives := by
  obtain ⟨d, hd, huse⟩ := List.mem_flatMap.mp h
  rcases Definition.mem_uses_mapFields directive huse with hleft | ⟨p, hp, hfound⟩
  · exact .inl (List.mem_flatMap.mpr ⟨_, List.mem_map_of_mem hd, hleft⟩)
  · exact .inr ⟨p, List.mem_flatMap.mpr ⟨d, hd, hp⟩, hfound⟩

/-! ## Valid clean texts -/

/-- **A valid clean text has no annotation left.** When a schema does not define the directive itself and its
clean text is valid, the document of the clean text uses the directive nowhere. So all uses of the directive in
the schema stand on fields, and the bindings are those of the annotated fields, one for each. -/
theorem valid_cleanText_unannotated (h : extract text lambdaDirective = .ok extraction)
    (hvalid : validateSchema extraction.cleanText = .ok ())
    (hundefined : ∀ document, Document.parse text = .ok document →
      ∀ d ∈ directiveDefs document.definitions, d.name ≠ lambdaDirective) :
    ∃ document clean, Document.parse text = .ok document ∧ Document.parse extraction.cleanText = .ok clean ∧
      (∀ use ∈ clean.uses, use.directive.name ≠ lambdaDirective) ∧
      (∀ use ∈ document.uses, use.directive.name = lambdaDirective → use.location = .fieldDefinition ∧
        ∃ p ∈ document.annotated lambdaDirective, use.directive ∈ p.2.directives) ∧
      List.Forall₂ (fun p b => b.parentType = p.1 ∧ b.fieldName = p.2.name ∧
          (p.2.handlerLiteral? lambdaDirective).map (·.text) = some b.handler)
        (document.annotated lambdaDirective) extraction.bindings := by
  obtain ⟨document, result, hparse, hscan, rfl⟩ := extract_eq_ok.mp h
  obtain ⟨clean, hclean, hcheck⟩ := validateSchema_eq_ok.mp hvalid
  have hstripped := (scan_eq_ok.mp hscan).2.1
  have hwf : result.document.WellFormed StringLiteral.IsRead := scan_wellFormed hscan (parse_isRead hparse)
  -- the clean document defines what the schema defines, and uses what the scan has left
  have hdefines : ∀ d ∈ directiveDefs clean.definitions, d.name ≠ lambdaDirective := by
    rw [Document.directiveDefs_parse_print hwf hclean, hstripped, Document.mapFields, directiveDefs_mapFields]
    exact hundefined document hparse
  have hunused := not_used_of_check hcheck not_isProvided_lambdaDirective hdefines
  have hleft : ∀ use ∈ result.document.uses, use.directive.name ≠ lambdaDirective := by
    intro use huse hname
    rw [Document.useNames_parse_print hwf hclean] at hunused
    exact hunused (hname ▸ List.mem_map_of_mem huse)
  refine ⟨document, clean, hparse, hclean, fun use huse hname => ?_, fun use huse hname => ?_,
    scan_bindings hscan⟩
  · exact hunused (hname ▸ List.mem_map_of_mem huse)
  · rw [hstripped] at hleft
    rcases Document.mem_uses_mapFields lambdaDirective huse with hkept | ⟨p, hp, hplace, hmem⟩
    · exact absurd hname (hleft use hkept)
    · refine ⟨hplace, p, ?_, hmem⟩
      rw [annotated_eq_filter]
      exact List.mem_filter.mpr ⟨hp, List.any_eq_true.mpr ⟨use.directive, hmem, beq_iff_eq.mpr hname⟩⟩

/-- A schema with two annotated fields, of a type and of an extension of it. -/
def annotatedQuery : String :=
  "type Query \x7b a: Int @AWSLambda(handler: \"h\") b: Int @deprecated \x7d "
    ++ "extend type Query \x7b c: Int @AWSLambda(handler: \"g\") \x7d"

/-- What is extracted from it. -/
def queryExtraction : Extraction :=
  ⟨[⟨"Query", "a", "h"⟩, ⟨"Query", "c", "g"⟩],
    "type Query \x7b\n  a: Int\n  b: Int @deprecated\n\x7d\n\nextend type Query \x7b\n  c: Int\n\x7d"⟩

theorem toList_annotatedQuery : annotatedQuery.toList
    = "type Query \x7b a: Int @AWSLambda(handler: \"h\") b: Int @deprecated \x7d ".toList
      ++ "extend type Query \x7b c: Int @AWSLambda(handler: \"g\") \x7d".toList := String.toList_append

theorem parse_annotatedQuery : Document.parse annotatedQuery = .ok
    ⟨[.type none ⟨"Query", [], .object [] [⟨none, "a", [], .named "Int" false,
        [⟨"AWSLambda", [⟨"handler", .string ⟨"h", false⟩⟩]⟩]⟩, ⟨none, "b", [], .named "Int" false, [⟨"deprecated", []⟩]⟩]⟩,
      .extendType ⟨"Query", [], .object [] [⟨none, "c", [], .named "Int" false,
        [⟨"AWSLambda", [⟨"handler", .string ⟨"g", false⟩⟩]⟩]⟩]⟩]⟩ := by
  have htokens : tokens annotatedQuery.toList = [.name "type", .name "Query", .punctuator .braceOpen, .name "a",
      .punctuator .colon, .name "Int", .punctuator .atSign, .name "AWSLambda", .punctuator .parenOpen,
      .name "handler", .punctuator .colon, .string ⟨"h", false⟩, .punctuator .parenClose, .name "b",
      .punctuator .colon, .name "Int", .punctuator .atSign, .name "deprecated", .punctuator .braceClose,
      .name "extend", .name "type", .name "Query", .punctuator .braceOpen, .name "c", .punctuator .colon,
      .name "Int", .punctuator .atSign, .name "AWSLambda", .punctuator .parenOpen, .name "handler",
      .punctuator .colon, .string ⟨"g", false⟩, .punctuator .parenClose, .punctuator .braceClose, .endOfInput] := by
    rw [toList_annotatedQuery, String.toList_ofList, String.toList_ofList]
    decide +kernel
  exact Parser.parseText_of_tokens htokens rfl

theorem extract_annotatedQuery : extract annotatedQuery lambdaDirective = .ok queryExtraction := by
  rw [extract, parse_annotatedQuery]
  cbv

theorem validateSchema_queryExtraction : validateSchema queryExtraction.cleanText = .ok () :=
  validateSchema_of_isOk (by
    rw [queryExtraction, validateSchema, Document.parse, Parser.parseText_ofList]
    decide +kernel)

theorem valid_cleanText_unannotated_query : extract annotatedQuery lambdaDirective = .ok queryExtraction ∧
    validateSchema queryExtraction.cleanText = .ok () ∧
    (∀ document, Document.parse annotatedQuery = .ok document →
      ∀ d ∈ directiveDefs document.definitions, d.name ≠ lambdaDirective) ∧
    ∃ document clean, Document.parse annotatedQuery = .ok document ∧
      Document.parse queryExtraction.cleanText = .ok clean ∧
      (∀ use ∈ clean.uses, use.directive.name ≠ lambdaDirective) ∧
      (∀ use ∈ document.uses, use.directive.name = lambdaDirective → use.location = .fieldDefinition ∧
        ∃ p ∈ document.annotated lambdaDirective, use.directive ∈ p.2.directives) ∧
      List.Forall₂ (fun p b => b.parentType = p.1 ∧ b.fieldName = p.2.name ∧
          (p.2.handlerLiteral? lambdaDirective).map (·.text) = some b.handler)
        (document.annotated lambdaDirective) queryExtraction.bindings := by
  have hundefined : ∀ document, Document.parse annotatedQuery = .ok document →
      ∀ d ∈ directiveDefs document.definitions, d.name ≠ lambdaDirective := by
    intro document hparse d hd
    cases parse_annotatedQuery.symm.trans hparse
    cases hd
  exact ⟨extract_annotatedQuery, validateSchema_queryExtraction, hundefined,
    valid_cleanText_unannotated extract_annotatedQuery validateSchema_queryExtraction hundefined⟩

end ResolverWiring
