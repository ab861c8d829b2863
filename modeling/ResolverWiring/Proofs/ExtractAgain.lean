import ResolverWiring.Proofs.Extract
import ResolverWiring.Proofs.ScanSeries

/-!
# `Proofs.ExtractAgain` — extraction from a clean text

A scan leaves no annotation, so a clean text that is parsed as the document it is the print of is its own clean
text. A clean text that is parsed as another document is not: that document is printed otherwise
(`Document.parse_print_same_iff`), whatever annotations it has. So extraction from a clean text finds nothing and
changes nothing exactly if the schema is separable (`extract_cleanText_iff`).
-/

namespace ResolverWiring

open Graphql

variable {document : Document} {text directive : String} {extraction : Extraction}

/-! ## Scanning a document without annotations -/

/-- The scan of a document without annotated fields finds nothing and changes nothing. -/
theorem scan_of_unannotated (h : document.annotated directive = []) :
    scan document directive = .ok ⟨[], document, []⟩ := by
  refine scan_eq_ok.mpr ⟨?_, ?_, rfl⟩
  · rw [findings_eq, h]
    rfl
  · refine (mapFields_of_forall_mem fun p hp => ?_).symm
    rw [annotated_eq_filter, List.filter_eq_nil_iff] at h
    have hnone := h p hp
    rw [FieldDef.isAnnotated, List.any_eq_true, not_exists] at hnone
    refine congrArg (FieldDef.mk _ _ _ _) (List.filter_eq_self.mpr fun d hd => ?_)
    have := hnone d
    simpa [hd] using this

/-- A scan that finds nothing has met no annotated field. -/
theorem unannotated_of_bindings_nil {result : ScanResult} (h : scan document directive = .ok result)
    (hnone : result.bindings = []) : document.annotated directive = [] := by
  have hpairs := scan_bindings h
  rw [hnone] at hpairs
  exact List.forall₂_nil_right_iff.mp hpairs

theorem isAnnotated_withoutDirective (directive : String) (field : FieldDef) :
    (field.withoutDirective directive).isAnnotated directive = false := by
  rw [FieldDef.isAnnotated, FieldDef.withoutDirective, List.any_filter, List.any_eq_false]
  intro d _
  simp

/-- No field of the document that a scan leaves is annotated. -/
theorem unannotated_of_scan {result : ScanResult} (h : scan document directive = .ok result) :
    result.document.annotated directive = [] := by
  rw [annotated_eq_filter, (scan_eq_ok.mp h).2.1, fields_mapFields, List.filter_eq_nil_iff]
  refine List.forall_mem_map.mpr fun p _ => ?_
  simp [isAnnotated_withoutDirective]

/-! ## Extraction from a clean text -/

/-- A text of a document without annotated fields yields no bindings and the print of the document. -/
theorem extract_of_unannotated (hparse : Document.parse text = .ok document)
    (h : document.annotated directive = []) : extract text directive = .ok ⟨[], document.print⟩ :=
  extract_eq_ok.mpr ⟨document, ⟨[], document, []⟩, hparse, scan_of_unannotated h, rfl⟩

/-- A text that yields no bindings is that of a document which is printed as the clean text. -/
theorem parse_of_extract_nil {clean : String} (h : extract text directive = .ok ⟨[], clean⟩) :
    ∃ document, Document.parse text = .ok document ∧ document.print = clean := by
  obtain ⟨document, result, hparse, hscan, heq⟩ := extract_eq_ok.mp h
  obtain ⟨hnone, rfl⟩ := Extraction.mk.inj heq
  rw [scan_of_unannotated (unannotated_of_bindings_nil hscan hnone.symm)] at hscan
  cases hscan
  exact ⟨document, hparse, rfl⟩

/-- **Which clean texts are their own clean texts.** Extraction from a clean text yields no bindings and the same
text exactly if no definition of the schema without braces stands in front of a query that is written as a selection
set alone. -/
theorem extract_cleanText_iff (h : extract text directive = .ok extraction) :
    ∃ document result, Document.parse text = .ok document ∧ scan document directive = .ok result ∧
      extraction = ⟨result.bindings, result.document.print⟩ ∧
      (extract extraction.cleanText directive = .ok ⟨[], extraction.cleanText⟩ ↔ document.Separable) := by
  obtain ⟨document, result, hparse, hscan, rfl⟩ := extract_eq_ok.mp h
  have hread : result.document.WellFormed StringLiteral.IsRead := scan_wellFormed hscan (parse_isRead hparse)
  -- annotations have no part in what separates definitions
  have hkept : result.document.Separable ↔ document.Separable := by
    rw [(scan_eq_ok.mp hscan).2.1, separable_mapFields]
  refine ⟨document, result, hparse, hscan, rfl, fun hagain => ?_, fun hseparable => ?_⟩
  · exact hkept.mp ((Document.parse_print_same_iff hread).mp (parse_of_extract_nil hagain))
  · have hclean := Document.parse_print_of_separable hread (hkept.mpr hseparable)
    exact extract_of_unannotated hclean (unannotated_of_scan hscan)

theorem extract_cleanText_owner : ∃ text extraction,
    text = "\"\"\"An owner.\"\"\" type Owner \x7b name: String @AWSLambda(handler: \"n\") \x7d" ∧
    extraction = ⟨[⟨"Owner", "name", "n"⟩],
      "\"\"\"An owner.\"\"\"\ntype Owner \x7b\n  name: String\n\x7d"⟩ ∧
    extract text "AWSLambda" = .ok extraction ∧
    ∃ document result, Document.parse text = .ok document ∧ scan document "AWSLambda" = .ok result ∧
      extraction = ⟨result.bindings, result.document.print⟩ ∧
      (extract extraction.cleanText "AWSLambda" = .ok ⟨[], extraction.cleanText⟩ ↔ document.Separable) :=
  ⟨_, _, rfl, rfl, extract_owner, extract_cleanText_iff extract_owner⟩

/-- A clean text with a binding: the type takes the braces of the query, so that an alias of it becomes a field and
a directive on it an annotation. -/
theorem extract_cleanText_binds : ∃ text extraction again,
    text = "type A query \x7b f: g @AWSLambda(handler: \"h\") \x7d" ∧
    extract text "AWSLambda" = .ok extraction ∧
    extraction = ⟨[], "type A\n\n\x7b\n  f: g @AWSLambda(handler: \"h\")\n\x7d"⟩ ∧
    extract extraction.cleanText "AWSLambda" = .ok again ∧
    again = ⟨[⟨"A", "f", "h"⟩], "type A \x7b\n  f: g\n\x7d"⟩ ∧
    extract extraction.cleanText "AWSLambda" ≠ .ok ⟨[], extraction.cleanText⟩ := by
  -- the texts are evaluated as far as their documents, and extraction from these
  let field : Selection := .field (some "f") "g" [] [⟨"AWSLambda", [⟨"handler", .string ⟨"h", false⟩⟩]⟩] []
  let annotated : FieldDef :=
    ⟨none, "f", [], .named "g" false, [⟨"AWSLambda", [⟨"handler", .string ⟨"h", false⟩⟩]⟩]⟩
  have htokens : tokens "type A query \x7b f: g @AWSLambda(handler: \"h\") \x7d".toList = [.name "type", .name "A",
      .name "query", .punctuator .braceOpen, .name "f", .punctuator .colon, .name "g", .punctuator .atSign,
      .name "AWSLambda", .punctuator .parenOpen, .name "handler", .punctuator .colon, .string ⟨"h", false⟩,
      .punctuator .parenClose, .punctuator .braceClose, .endOfInput] := by
    rw [String.toList_ofList]
    decide +kernel
  have hcleanTokens : tokens "type A\n\n\x7b\n  f: g @AWSLambda(handler: \"h\")\n\x7d".toList = [.name "type",
      .name "A", .punctuator .braceOpen, .name "f", .punctuator .colon, .name "g", .punctuator .atSign,
      .name "AWSLambda", .punctuator .parenOpen, .name "handler", .punctuator .colon, .string ⟨"h", false⟩,
      .punctuator .parenClose, .punctuator .braceClose, .endOfInput] := by
    rw [String.toList_ofList]
    decide +kernel
  have hparse : Document.parse "type A query \x7b f: g @AWSLambda(handler: \"h\") \x7d"
      = .ok ⟨[.type none ⟨"A", [], .object [] []⟩, .operation ⟨.query, none, [], [], [field]⟩]⟩ :=
    Parser.parseText_of_tokens htokens rfl
  have hclean : Document.parse "type A\n\n\x7b\n  f: g @AWSLambda(handler: \"h\")\n\x7d"
      = .ok ⟨[.type none ⟨"A", [], .object [] [annotated]⟩]⟩ :=
    Parser.parseText_of_tokens hcleanTokens rfl
  have hextract : extract "type A query \x7b f: g @AWSLambda(handler: \"h\") \x7d" "AWSLambda"
      = .ok ⟨[], "type A\n\n\x7b\n  f: g @AWSLambda(handler: \"h\")\n\x7d"⟩ := by
    rw [extract, hparse]
    cbv
  have hagain : extract "type A\n\n\x7b\n  f: g @AWSLambda(handler: \"h\")\n\x7d" "AWSLambda"
      = .ok ⟨[⟨"A", "f", "h"⟩], "type A \x7b\n  f: g\n\x7d"⟩ := by
    rw [extract, hclean]
    cbv
  refine ⟨_, _, _, rfl, hextract, rfl, hagain, rfl, fun hsame => ?_⟩
  exact absurd (Extraction.mk.inj (Except.ok.inj (hagain.symm.trans hsame))).1 (List.cons_ne_nil _ _)

end ResolverWiring
