import Mathlib.Data.List.Induction
import ResolverWiring.Proofs.Scan

/-!
# `Proofs.ScanSeries` — scans for several directives, one after another

A scan takes one directive off the fields of a document, and the next scan starts on what it has left; a scan
that fails leaves the document as it was. What is left after some scans is therefore the first document
without the directives whose scans succeeded (`leftAfter_eq`), and this is the invariant of a series: a field
still carries a directive whose turn has not come, with the same arguments and behind the same name, so a scan
for it finds what it would have found at the start (`findings_withoutDirectives`).

`scanSeries_exact` puts together what every scan of a series yields, and what the series leaves. The order of
the scans does not show in the latter.
-/

namespace ResolverWiring

open Graphql

variable {document : Document} {directive : String} {gone : String → Bool}

/-! ## Taking several directives off the fields -/

/-- A field without the directives whose names are gone; the others stay in their order. -/
def Graphql.FieldDef.withoutDirectives (gone : String → Bool) (field : FieldDef) : FieldDef :=
  { field with directives := field.directives.filter fun d => !gone d.name }

/-- A document without the directives on its fields whose names are gone. -/
def Graphql.Document.withoutDirectives (gone : String → Bool) (document : Document) : Document :=
  document.mapFields (·.withoutDirectives gone)

theorem mapFields_congr {f g : FieldDef → FieldDef} (h : ∀ field, f field = g field)
    (document : Document) : document.mapFields f = document.mapFields g := by
  rw [funext h]

theorem mapFields_mapFields (f g : FieldDef → FieldDef) (document : Document) :
    (document.mapFields f).mapFields g = document.mapFields fun field => g (f field) := by
  have hbody : ∀ body : TypeBody,
      (body.mapFields f).mapFields g = body.mapFields fun field => g (f field) := by
    intro body
    cases body with
    | object interfaces fields => exact congrArg (TypeBody.object interfaces) List.map_map
    | interface interfaces fields => exact congrArg (TypeBody.interface interfaces) List.map_map
    | _ => rfl
  show Document.mk ((document.definitions.map _).map _) = Document.mk _
  rw [List.map_map]
  congr 2
  funext definition
  cases definition with
  | type description decl =>
    simp only [Function.comp_apply, Definition.mapFields, hbody]
  | extendType decl =>
    simp only [Function.comp_apply, Definition.mapFields, hbody]
  | _ => rfl

/-- Changing fields that stay as they are changes nothing. -/
theorem mapFields_of_forall_mem {f : FieldDef → FieldDef} (h : ∀ p ∈ document.fields, f p.2 = p.2) :
    document.mapFields f = document := by
  have hbody : ∀ body : TypeBody, (∀ field ∈ body.outputFields, f field = field) → body.mapFields f = body := by
    intro body hfields
    cases body with
    | object interfaces fields =>
      exact congrArg _ ((List.map_congr_left hfields).trans (List.map_id _))
    | interface interfaces fields =>
      exact congrArg _ ((List.map_congr_left hfields).trans (List.map_id _))
    | _ => rfl
  obtain ⟨definitions⟩ := document
  refine congrArg Document.mk ((List.map_congr_left fun d hd => ?_).trans (List.map_id _))
  have hfields : ∀ p ∈ d.fields, f p.2 = p.2 := fun p hp => h p (List.mem_flatMap.mpr ⟨d, hd, hp⟩)
  cases d with
  | type description decl =>
    have hsame := hbody decl.body fun field hmem => hfields (decl.name, field) (List.mem_map_of_mem hmem)
    rw [Definition.mapFields, hsame]
    rfl
  | extendType decl =>
    have hsame := hbody decl.body fun field hmem => hfields (decl.name, field) (List.mem_map_of_mem hmem)
    rw [Definition.mapFields, hsame]
    rfl
  | _ => rfl

theorem fields_mapFields (f : FieldDef → FieldDef) (document : Document) :
    (document.mapFields f).fields = document.fields.map fun p => (p.1, f p.2) := by
  show (document.definitions.map _).flatMap _ = (document.definitions.flatMap _).map _
  rw [List.flatMap_map, List.map_flatMap]
  congr 1
  funext definition
  cases definition with
  | type description decl =>
    obtain ⟨name, directives, body⟩ := decl
    cases body <;> simp [Definition.mapFields, Definition.fields, TypeBody.mapFields,
      TypeBody.outputFields]
  | extendType decl =>
    obtain ⟨name, directives, body⟩ := decl
    cases body <;> simp [Definition.mapFields, Definition.fields, TypeBody.mapFields,
      TypeBody.outputFields]
  | _ => rfl

/-! ## What a scan finds when other directives are gone -/

/-- The first directive of a name stays the first one, unless it is gone with all others of its name. -/
theorem directive?_withoutDirectives (gone : String → Bool) (field : FieldDef) (directive : String) :
    (field.withoutDirectives gone).directive? directive
      = if gone directive then none else field.directive? directive := by
  unfold FieldDef.directive? FieldDef.withoutDirectives
  rw [List.find?_filter]
  cases hgone : gone directive with
  | true =>
    rw [if_pos rfl, List.find?_eq_none]
    intro d _ hd
    obtain ⟨hkept, hname⟩ := of_decide_eq_true hd
    rw [eq_of_beq hname, hgone] at hkept
    cases hkept
  | false =>
    rw [if_neg Bool.false_ne_true]
    congr 1
    funext d
    cases hname : d.name == directive with
    | true => rw [eq_of_beq hname, hgone]; rfl
    | false => exact decide_eq_false fun h => Bool.false_ne_true h.2

theorem bindingOf?_withoutDirectives (gone : String → Bool) (directive parent : String)
    (field : FieldDef) :
    bindingOf? directive parent (field.withoutDirectives gone)
      = if gone directive then none else bindingOf? directive parent field := by
  rw [bindingOf?, directive?_withoutDirectives]
  cases gone directive <;> rfl

/-- A directive is found as ever while others go, and not at all once it is gone itself. -/
theorem findings_withoutDirectives (gone : String → Bool) (document : Document) (directive : String) :
    findings (document.withoutDirectives gone) directive
      = if gone directive then [] else findings document directive := by
  rw [findings, Document.withoutDirectives, fields_mapFields, List.filterMap_map]
  cases hgone : gone directive with
  | true =>
    refine List.filterMap_eq_nil_iff.mpr fun p _ => ?_
    show bindingOf? directive p.1 (p.2.withoutDirectives gone) = none
    rw [bindingOf?_withoutDirectives, hgone, if_pos rfl]
  | false =>
    refine List.filterMap_congr fun p _ => ?_
    show bindingOf? directive p.1 (p.2.withoutDirectives gone) = bindingOf? directive p.1 p.2
    rw [bindingOf?_withoutDirectives, hgone, if_neg Bool.false_ne_true]

/-! ## One scan of a series -/

/-- The bindings of a scan, or its error, are made of the findings alone. -/
theorem bindings_scan (document : Document) (directive : String) :
    (scan document directive).map (·.bindings) = (findings document directive).mapM id := by
  unfold scan
  cases (findings document directive).mapM id <;> rfl

/-- A scan for a directive that is there yields what it yields while others are there too. -/
theorem bindings_scan_withoutDirectives (hkept : gone directive = false) (document : Document) :
    (scan (document.withoutDirectives gone) directive).map (·.bindings)
      = (scan document directive).map (·.bindings) := by
  rw [bindings_scan, bindings_scan, findings_withoutDirectives, hkept, if_neg Bool.false_ne_true]

theorem withoutDirective_withoutDirectives (gone : String → Bool) (document : Document)
    (directive : String) :
    (document.withoutDirectives gone).mapFields (·.withoutDirective directive)
      = document.withoutDirectives fun name => gone name || name == directive := by
  rw [Document.withoutDirectives, mapFields_mapFields]
  refine mapFields_congr (fun field => ?_) document
  show FieldDef.mk _ _ _ _ ((field.directives.filter _).filter _) = FieldDef.mk _ _ _ _ _
  rw [List.filter_filter]
  refine congrArg (FieldDef.mk _ _ _ _) (List.filter_congr fun d _ => ?_)
  rw [Bool.not_or, Bool.and_comm]
  rfl

/-- A scan for a directive that is gone finds nothing and changes nothing. -/
theorem scan_of_gone (hgone : gone directive = true) (document : Document) :
    scan (document.withoutDirectives gone) directive
      = .ok ⟨[], document.withoutDirectives gone, []⟩ := by
  refine scan_eq_ok.mpr ⟨?_, ?_, rfl⟩
  · rw [findings_withoutDirectives, hgone]
    rfl
  · rw [withoutDirective_withoutDirectives]
    -- the directive is among those that are gone already
    refine congrArg document.withoutDirectives (funext fun name => ?_)
    cases hname : name == directive with
    | true => rw [eq_of_beq hname, hgone]; rfl
    | false => exact (Bool.or_false _).symm

/-! ## A series of scans -/

/-- What a scan leaves of a document: the document itself if the scan fails. -/
def Graphql.Document.leftBy (document : Document) (directive : String) : Document :=
  match scan document directive with
  | .ok result => result.document
  | .error _ => document

/-- What scans leave of a document, each of which starts on what the one in front has left. -/
def Graphql.Document.leftAfter (document : Document) (directives : List String) : Document :=
  directives.foldl Document.leftBy document

/-- What such scans yield. -/
def scanSeries (document : Document) : List String → List (Except LocalizedError ScanResult)
  | [] => []
  | directive :: others => scan document directive :: scanSeries (document.leftBy directive) others

theorem length_scanSeries (document : Document) (directives : List String) :
    (scanSeries document directives).length = directives.length := by
  induction directives generalizing document with
  | nil => rfl
  | cons directive others ih => exact congrArg (· + 1) (ih (document.leftBy directive))

/-- Each scan of a series is one of the document that the scans in front have left. -/
theorem scanSeries_append_cons (document : Document) (front : List String) (directive : String)
    (back : List String) :
    (scanSeries document (front ++ directive :: back))[front.length]?
      = some (scan (document.leftAfter front) directive) := by
  induction front generalizing document with
  | nil => rfl
  | cons first front ih => exact ih (document.leftBy first)

/-- The names in a list for which a scan of the document succeeds. -/
def Graphql.Document.succeedsFor (document : Document) (directives : List String) (name : String) :
    Bool :=
  directives.contains name && (scan document name).isOk

theorem isOk_scan_withoutDirectives (hkept : gone directive = false) (document : Document) :
    (scan (document.withoutDirectives gone) directive).isOk = (scan document directive).isOk := by
  have hmap : ∀ outcome : Except LocalizedError ScanResult,
      (outcome.map (·.bindings)).isOk = outcome.isOk := fun outcome => by cases outcome <;> rfl
  rw [← hmap, bindings_scan_withoutDirectives hkept, hmap]

/-- **One step.** When the directives of successful scans are gone, a further scan takes off the directive of its
name, too, if it succeeds on the first document. -/
theorem leftBy_withoutDirectives
    (hgone : ∀ name, gone name = true → (scan document name).isOk = true) (directive : String) :
    (document.withoutDirectives gone).leftBy directive = document.withoutDirectives fun name =>
      gone name || (name == directive && (scan document name).isOk) := by
  have hsplit : ∀ name, (gone name || (name == directive && (scan document name).isOk))
      = if (scan document directive).isOk then gone name || name == directive else gone name := by
    intro name
    cases hname : name == directive with
    | true => rw [eq_of_beq hname]; cases (scan document directive).isOk <;> simp
    | false => cases (scan document directive).isOk <;> simp
  rw [funext hsplit]
  unfold Document.leftBy
  cases hdirective : gone directive with
  | true =>
    -- it is gone already, and the scan leaves everything as it is
    rw [scan_of_gone hdirective, hgone directive hdirective]
    show document.withoutDirectives gone = _
    congr 1
    funext name
    rw [if_pos rfl]
    cases hname : name == directive with
    | true => rw [eq_of_beq hname, hdirective]; rfl
    | false => rw [Bool.or_false]
  | false =>
    have hsame := isOk_scan_withoutDirectives hdirective document
    cases hscan : scan (document.withoutDirectives gone) directive with
    | ok result =>
      rw [hscan] at hsame
      rw [← hsame]
      show result.document = _
      rw [(scan_eq_ok.mp hscan).2.1, withoutDirective_withoutDirectives]
      rfl
    | error e =>
      rw [hscan] at hsame
      rw [← hsame]
      rfl

/-- **The run.** A series leaves the first document without the directives whose scans succeed on it. -/
theorem leftAfter_eq (document : Document) (directives : List String) :
    document.leftAfter directives
      = document.withoutDirectives (document.succeedsFor directives) := by
  -- from the back: the last scan starts on what the others have left
  induction directives using List.reverseRecOn with
  | nil =>
    refine (mapFields_of_forall_mem fun p _ => ?_).symm
    exact congrArg (FieldDef.mk _ _ _ _) (List.filter_eq_self.mpr fun d _ => rfl)
  | append_singleton front directive ih =>
    have hgone : ∀ name, document.succeedsFor front name = true →
        (scan document name).isOk = true := fun name h => (Bool.and_eq_true_iff.mp h).2
    rw [Document.leftAfter, List.foldl_concat]
    show (document.leftAfter front).leftBy directive = _
    rw [ih, leftBy_withoutDirectives hgone]
    refine congrArg document.withoutDirectives (funext fun name => ?_)
    unfold Document.succeedsFor
    rw [List.contains_append, ← Bool.and_or_distrib_right, List.contains_cons, List.contains_nil,
      Bool.or_false]

/-- **Scans for several directives do not interfere.** In a series of scans, with any names in any order, a scan
yields the bindings or the error that it yields on the first document, unless a scan for the same name has
succeeded before: then it yields no bindings and leaves what it starts on. The series leaves the first document
without the directives on its fields that are in the list and whose scans succeed on it; so every other list with the
same names leaves the same. -/
theorem scanSeries_exact (document : Document) (directives : List String) :
    (scanSeries document directives).length = directives.length ∧
    (∀ front directive back, directives = front ++ directive :: back →
      ∃ outcome, (scanSeries document directives)[front.length]? = some outcome ∧
        (directive ∉ front ∨ (scan document directive).isOk = false →
          outcome.map (·.bindings) = (scan document directive).map (·.bindings)) ∧
        (directive ∈ front ∧ (scan document directive).isOk = true →
          outcome = .ok ⟨[], document.leftAfter front, []⟩ ∧
          document.leftAfter (front ++ [directive]) = document.leftAfter front)) ∧
    document.leftAfter directives = (document.mapFields fun field =>
      { field with directives := field.directives.filter fun d =>
          !(directives.contains d.name && (scan document d.name).isOk) }) ∧
    ∀ others : List String, (∀ name, name ∈ others ↔ name ∈ directives) →
      document.leftAfter others = document.leftAfter directives := by
  refine ⟨length_scanSeries document directives, ?_, leftAfter_eq document directives, ?_⟩
  · rintro front directive back rfl
    refine ⟨_, scanSeries_append_cons document front directive back, fun hkept => ?_, fun hgone => ?_⟩
    · have hkept : document.succeedsFor front directive = false := by
        unfold Document.succeedsFor
        rcases hkept with hnew | hfails
        · rw [List.contains_eq_mem, decide_eq_false hnew, Bool.false_and]
        · rw [hfails, Bool.and_false]
      rw [leftAfter_eq]
      exact bindings_scan_withoutDirectives hkept document
    · have hgone : document.succeedsFor front directive = true := by
        unfold Document.succeedsFor
        rw [List.contains_eq_mem, decide_eq_true hgone.1, hgone.2]
        rfl
      have hscan := scan_of_gone hgone document
      rw [← leftAfter_eq] at hscan
      refine ⟨hscan, ?_⟩
      rw [Document.leftAfter, List.foldl_concat]
      show (document.leftAfter front).leftBy directive = _
      rw [Document.leftBy, hscan]
  · intro others hsame
    rw [leftAfter_eq, leftAfter_eq]
    congr 1
    funext name
    unfold Document.succeedsFor
    rw [List.contains_eq_mem, List.contains_eq_mem, decide_eq_decide.mpr (hsame name)]

end ResolverWiring
