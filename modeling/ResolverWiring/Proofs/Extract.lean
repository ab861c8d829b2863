import Mathlib
import ResolverWiring.Proofs.Graphql.Reprint
import ResolverWiring.Proofs.Scan
import ResolverWiring.Schema.Extract

/-!
# `Proofs.Extract` — what a clean text denotes

The clean text of a schema is the print of the document that a scan leaves. A scan takes directives off fields
and does nothing else, so it leaves a document well formed (`Document.WellFormed.withoutDirective`) and as
separable as it was (`Document.separable_mapFields`). The round trip of printing and parsing therefore carries
over: the clean text denotes the scanned document exactly if the document of the schema is separable.
-/

namespace ResolverWiring

open Graphql

variable {allowed : StringLiteral → Prop} {text directive : String}

/-! ## Changing fields keeps the form of a document -/

section MapFields

variable {f : FieldDef → FieldDef}

theorem lacksBraces_mapFields (d : Definition) : (d.mapFields f).lacksBraces = d.lacksBraces := by
  have hbody : ∀ body : TypeBody, (body.mapFields f).lacksBraces = body.lacksBraces := by
    intro body
    cases body with
    | object interfaces fields => exact List.isEmpty_map
    | interface interfaces fields => exact List.isEmpty_map
    | _ => rfl
  cases d with
  | type description decl => exact hbody decl.body
  | extendType decl => exact hbody decl.body
  | _ => rfl

theorem isShorthand_mapFields (d : Definition) : (d.mapFields f).isShorthand = d.isShorthand := by
  cases d <;> rfl

theorem emptied_mapFields (d : Definition) : (d.mapFields f).emptied = d.emptied := by
  cases d with
  | type description decl => obtain ⟨name, directives, body⟩ := decl; cases body <;> rfl
  | extendType decl => obtain ⟨name, directives, body⟩ := decl; cases body <;> rfl
  | _ => rfl

/-- A definition that lacks its braces has no fields to change. -/
theorem mapFields_of_lacksBraces {d : Definition} (h : d.lacksBraces = true) :
    d.mapFields f = d := by
  rw [← Definition.emptied_eq_self ((lacksBraces_mapFields d).trans h), emptied_mapFields,
    Definition.emptied_eq_self h]

/-- Definitions are separable whatever becomes of their fields. -/
theorem separable_mapFields (d : Document) : (d.mapFields f).Separable ↔ d.Separable := by
  have hseparate : ∀ a b : Definition,
      (a.mapFields f).SeparateFrom (b.mapFields f) ↔ a.SeparateFrom b := by
    intro a b
    rw [Definition.SeparateFrom, Definition.SeparateFrom, lacksBraces_mapFields,
      isShorthand_mapFields]
  show ((d.definitions.map _).IsChain _) ↔ d.definitions.IsChain _
  rw [List.isChain_map]
  exact ⟨fun h => h.imp fun a b => (hseparate a b).mp, fun h => h.imp fun a b => (hseparate a b).mpr⟩

/-- A definition takes the one behind it for its braces whatever becomes of the fields. -/
theorem swallows_mapFields {definitions result : List Definition} (h : Swallows definitions result) :
    Swallows (definitions.map (·.mapFields f)) (result.map (·.mapFields f)) := by
  induction h with
  | @here d d' next others others' hnext hlacks hsame hbraces =>
    refine .here ((isShorthand_mapFields next).trans hnext)
      ((lacksBraces_mapFields d).trans hlacks) ?_ ((lacksBraces_mapFields d').trans hbraces)
    show (d'.mapFields f).emptied = d.mapFields f
    rw [emptied_mapFields, hsame, mapFields_of_lacksBraces hlacks]
  | there d _ ih => exact .there (d.mapFields f) ih

end MapFields

theorem FieldDef.WellFormed.withoutDirective {field : FieldDef} (h : field.WellFormed allowed)
    (directive : String) : (field.withoutDirective directive).WellFormed allowed :=
  ⟨h.description, h.name, h.arguments, h.type,
    fun d hd => h.directives d (List.mem_of_mem_filter hd)⟩

theorem TypeBody.WellFormed.mapFields {f : FieldDef → FieldDef} {body : TypeBody}
    (h : body.WellFormed allowed)
    (hf : ∀ field : FieldDef, field.WellFormed allowed → (f field).WellFormed allowed) :
    (body.mapFields f).WellFormed allowed := by
  cases body with
  | object interfaces fields =>
    exact ⟨h.1, List.forall_mem_map.mpr fun field hfield => hf field (h.2 field hfield)⟩
  | interface interfaces fields =>
    exact ⟨h.1, List.forall_mem_map.mpr fun field hfield => hf field (h.2 field hfield)⟩
  | _ => exact h

theorem isEmpty_mapFields {f : FieldDef → FieldDef} (body : TypeBody) :
    (body.mapFields f).isEmpty = body.isEmpty := by
  cases body with
  | object interfaces fields => rw [TypeBody.mapFields, TypeBody.isEmpty, List.isEmpty_map]; rfl
  | interface interfaces fields => rw [TypeBody.mapFields, TypeBody.isEmpty, List.isEmpty_map]; rfl
  | _ => rfl

/-- A document stays well formed when a directive is taken off its fields. -/
theorem Document.WellFormed.withoutDirective {document : Document} (h : document.WellFormed allowed)
    (directive : String) : (document.mapFields (·.withoutDirective directive)).WellFormed allowed := by
  have hbody : ∀ body : TypeBody, body.WellFormed allowed →
      (body.mapFields (·.withoutDirective directive)).WellFormed allowed := fun body hbody =>
    TypeBody.WellFormed.mapFields hbody fun field hfield =>
      FieldDef.WellFormed.withoutDirective hfield directive
  refine ⟨fun hnil => h.ne_nil (List.map_eq_nil_iff.mp hnil), ?_⟩
  refine List.forall_mem_map.mpr fun definition hmem => ?_
  have hdefinition := h.definitions definition hmem
  cases definition with
  | type description decl =>
    obtain ⟨hdescription, hdecl⟩ := hdefinition
    exact ⟨hdescription, hdecl.name, hdecl.directives, hbody decl.body hdecl.body⟩
  | extendType decl =>
    obtain ⟨hdecl, hadds⟩ := hdefinition
    refine ⟨⟨hdecl.name, hdecl.directives, hbody decl.body hdecl.body⟩, ?_⟩
    exact hadds.imp_right fun hadds => (isEmpty_mapFields decl.body).trans hadds
  | _ => exact hdefinition

theorem scan_wellFormed {document : Document} {result : ScanResult}
    (hscan : scan document directive = .ok result) (h : document.WellFormed allowed) :
    result.document.WellFormed allowed := by
  rw [(scan_eq_ok.mp hscan).2.1]
  exact Document.WellFormed.withoutDirective h directive

/-! ## Extraction -/

theorem normalize_nil (document : Document) : document.normalize [] = document := by
  have hnone : ∀ d : Definition, d.isEmptied [] = false := by
    intro d
    unfold Definition.isEmptied
    split <;> rfl
  show Document.mk (document.definitions.filter _) = document
  rw [List.filter_eq_self.mpr fun d _ => by rw [hnone d]; rfl]

/-- Extraction from a text that is parsed is a scan. -/
theorem extract_of_parse {document : Document} (h : Document.parse text = .ok document) :
    extract text directive = ((scan document directive).map fun result =>
      ⟨result.bindings, result.document.print⟩).mapError .localized := by
  rw [extract, h]
  show ((scan document directive).mapError ExtractError.localized >>= fun result => pure (Extraction.mk
    result.bindings (result.document.normalize result.emptiedTypes).print)) = _
  cases hscan : scan document directive with
  | error e => rfl
  | ok result =>
    -- a scan empties no type, so normalization drops nothing
    show Except.ok (Extraction.mk _ (result.document.normalize result.emptiedTypes).print) = _
    rw [(scan_eq_ok.mp hscan).2.2, normalize_nil]
    rfl

theorem extract_eq_ok {extraction : Extraction} :
    extract text directive = .ok extraction ↔ ∃ document result,
      Document.parse text = .ok document ∧ scan document directive = .ok result ∧
        extraction = ⟨result.bindings, result.document.print⟩ := by
  constructor
  · intro h
    cases hparse : Document.parse text with
    | error fault =>
      rw [extract, hparse] at h
      cases h
    | ok document =>
      rw [extract_of_parse hparse] at h
      cases hscan : scan document directive with
      | error e =>
        rw [hscan] at h
        cases h
      | ok result =>
        rw [hscan] at h
        cases h
        exact ⟨document, result, rfl, hscan, rfl⟩
  · rintro ⟨document, result, hparse, hscan, rfl⟩
    rw [extract_of_parse hparse, hscan]
    rfl

/-! ## Extraction from a printed document -/

/-- The documents of texts have their literals as the lexer reads them. -/
theorem parse_isRead {document : Document} (h : Document.parse text = .ok document) :
    document.WellFormed StringLiteral.IsRead :=
  Document.parse_wellFormed h fun _ _ hread => hread

/-- What is printed from a separable document yields what every other text of the document yields. -/
theorem extract_print_of_separable {document : Document} (h : Document.parse text = .ok document)
    (hseparable : document.Separable) : extract document.print directive = extract text directive := by
  -- both texts are parsed as `document`, so the same is scanned and printed
  have hagain := Document.parse_print_of_separable (parse_isRead h) hseparable
  rw [extract_of_parse h, extract_of_parse hagain]

/-- What is printed from a document that is not separable does not. -/
theorem extract_print_ne {document : Document} {extraction : Extraction}
    (h : Document.parse text = .ok document) (hseparable : ¬ document.Separable)
    (hextract : extract text directive = .ok extraction) :
    extract document.print directive ≠ .ok extraction := by
  intro hprinted
  obtain ⟨document', result, hparse, hscan, rfl⟩ := extract_eq_ok.mp hextract
  obtain rfl : document = document' := Except.ok.inj (h.symm.trans hparse)
  obtain ⟨again, result', hagain, hscan', heq⟩ := extract_eq_ok.mp hprinted
  have hread : result.document.WellFormed StringLiteral.IsRead := scan_wellFormed hscan (parse_isRead h)
  have hread' : result'.document.WellFormed StringLiteral.IsRead := scan_wellFormed hscan' (parse_isRead hagain)
  have hswallows : Swallows result.document.definitions result'.document.definitions := by
    rw [(scan_eq_ok.mp hscan).2.1, (scan_eq_ok.mp hscan').2.1]
    exact swallows_mapFields (Document.parse_print_swallows (parse_isRead h) hseparable hagain)
  exact hswallows.print_ne hread hread' (Extraction.mk.inj heq).2

/-! ## The clean text -/

/-- **What a clean text denotes.** The clean text of a schema is parsed as the document that the scan left exactly
if no definition of the schema without braces stands in front of a query that is written as a selection set alone.
If it is parsed as another document, then because such a definition has taken such a query for its braces. -/
theorem parse_cleanText_iff {extraction : Extraction} (h : extract text directive = .ok extraction) :
    ∃ document result, Document.parse text = .ok document ∧ scan document directive = .ok result ∧
      extraction.bindings = result.bindings ∧
      (Document.parse extraction.cleanText = .ok result.document ↔ document.Separable) ∧
      ∀ clean, Document.parse extraction.cleanText = .ok clean → clean = result.document ∨
        Swallows result.document.definitions clean.definitions := by
  obtain ⟨document, result, hparse, hscan, rfl⟩ := extract_eq_ok.mp h
  have hstripped := (scan_eq_ok.mp hscan).2.1
  have hwf : result.document.WellFormed StringLiteral.IsRead := scan_wellFormed hscan (parse_isRead hparse)
  have hround : Document.parse result.document.print = .ok result.document ↔ document.Separable := by
    rw [Document.parse_print_iff hwf, hstripped, separable_mapFields]
  refine ⟨document, result, hparse, hscan, rfl, hround, fun clean hclean => ?_⟩
  -- whatever the clean text is parsed as, the round trip says what has become of the document
  by_cases hseparable : result.document.Separable
  · have hsame := (Document.parse_print_iff hwf).mpr hseparable
    exact .inl (Except.ok.inj (hclean.symm.trans hsame))
  · exact .inr (Document.parse_print_swallows hwf hseparable hclean)

/-- A type with a description and an annotated field. -/
theorem tokens_owner :
    tokens "\"\"\"An owner.\"\"\" type Owner \x7b name: String @AWSLambda(handler: \"n\") \x7d".toList
      = [.string ⟨"An owner.", true⟩, .name "type", .name "Owner", .punctuator .braceOpen, .name "name",
        .punctuator .colon, .name "String", .punctuator .atSign, .name "AWSLambda", .punctuator .parenOpen,
        .name "handler", .punctuator .colon, .string ⟨"n", false⟩, .punctuator .parenClose,
        .punctuator .braceClose, .endOfInput] := by
  rw [String.toList_ofList]
  decide +kernel

theorem extract_owner :
    extract "\"\"\"An owner.\"\"\" type Owner \x7b name: String @AWSLambda(handler: \"n\") \x7d" "AWSLambda"
      = .ok ⟨[⟨"Owner", "name", "n"⟩], "\"\"\"An owner.\"\"\"\ntype Owner \x7b\n  name: String\n\x7d"⟩ := by
  rw [extract, Document.parse, Parser.parseText_of_tokens tokens_owner rfl]
  cbv

theorem parse_cleanText_owner : ∃ text extraction,
    text = "\"\"\"An owner.\"\"\" type Owner \x7b name: String @AWSLambda(handler: \"n\") \x7d" ∧
    extraction = ⟨[⟨"Owner", "name", "n"⟩],
      "\"\"\"An owner.\"\"\"\ntype Owner \x7b\n  name: String\n\x7d"⟩ ∧
    extract text "AWSLambda" = .ok extraction ∧
    ∃ document result, Document.parse text = .ok document ∧ scan document "AWSLambda" = .ok result ∧
      extraction.bindings = result.bindings ∧
      (Document.parse extraction.cleanText = .ok result.document ↔ document.Separable) ∧
      ∀ clean, Document.parse extraction.cleanText = .ok clean → clean = result.document ∨
        Swallows result.document.definitions clean.definitions :=
  ⟨_, _, rfl, rfl, extract_owner, parse_cleanText_iff extract_owner⟩

/-- A clean text that is not parsed: the type has no braces of its own, and takes those of the query. -/
theorem cleanText_malformed : ∃ text directive extraction, extract text directive = .ok extraction ∧
    ∀ document, Document.parse extraction.cleanText ≠ .ok document := by
  refine ⟨"type A query { a }", "AWSLambda", ⟨[], "type A\n\n\x7b\n  a\n\x7d"⟩, by cbv, fun document h => ?_⟩
  have hfails : (Document.parse "type A\n\n\x7b\n  a\n\x7d").toBool = false := by cbv
  rw [h] at hfails
  cases hfails

end ResolverWiring
