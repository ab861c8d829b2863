import Mathlib.Data.List.Forall2
import ResolverWiring.Binding.Scan

/-!
# `Proofs.Scan` — what a scan finds, and what it leaves of a document

`scan` walks the fields of a document once. The statements here say what that walk amounts to, in terms
that do not mention the walk:

* which fields count (`Document.annotated`) and which of them are well formed
  (`FieldDef.handlerLiteral?`);
* what the rewritten document is (`Definition.Stripped`): the same definitions, in which the field lists
  of object and interface blocks have lost the directive and nothing else has changed;
* which error a scan fails with (`FieldDef.handlerProblem`), that of the first malformed field.

`findings_eq` reduces the list of findings to the annotated fields; everything else follows from what
`mapM` does to a list of results.
-/

namespace ResolverWiring

open Graphql

/-! ## Sequences of results -/

section Sequence

variable {ε α β : Type}

theorem sequence_error_cons (e : ε) (results : List (Except ε α)) :
    (.error e :: results).mapM id = .error e := by
  rw [List.mapM_cons]
  rfl

theorem sequence_ok_cons (a : α) (results : List (Except ε α)) :
    (.ok a :: results).mapM id = (results.mapM id).map (a :: ·) := by
  rw [List.mapM_cons]
  show (results.mapM id >>= fun as => pure (a :: as)) = _
  cases results.mapM id <;> rfl

/-- A list of results succeeds with the values `as` exactly if it is the list of these values. -/
theorem sequence_eq_ok {results : List (Except ε α)} {as : List α} :
    results.mapM id = .ok as ↔ results = as.map .ok := by
  induction results generalizing as with
  | nil => cases as <;> simp [pure, Except.pure]
  | cons r rs ih =>
    cases r with
    | error e =>
      rw [sequence_error_cons]
      cases as <;> simp
    | ok b =>
      rw [sequence_ok_cons]
      cases as with
      | nil => cases rs.mapM id <;> simp [Except.map]
      | cons a as =>
        rw [List.map_cons, List.cons.injEq, Except.ok.injEq, ← ih]
        cases rs.mapM id <;> simp [Except.map]

/-- A list of results fails with `e` exactly if `e` is its first error. -/
theorem sequence_eq_error {results : List (Except ε α)} {e : ε} :
    results.mapM id = .error e ↔
      ∃ (as : List α) (later : List (Except ε α)), results = as.map .ok ++ .error e :: later := by
  constructor
  · intro h
    induction results with
    | nil => cases h
    | cons r rs ih =>
      cases r with
      | error e' =>
        rw [sequence_error_cons] at h
        exact ⟨[], rs, by rw [Except.error.inj h]; rfl⟩
      | ok b =>
        rw [sequence_ok_cons] at h
        have hrs : rs.mapM id = .error e := by
          revert h
          cases rs.mapM id <;> simp [Except.map]
        obtain ⟨as, later, hlater⟩ := ih hrs
        exact ⟨b :: as, later, by rw [hlater]; rfl⟩
  · rintro ⟨as, later, rfl⟩
    induction as with
    | nil => exact sequence_error_cons e later
    | cons a as ih =>
      rw [List.map_cons, List.cons_append, sequence_ok_cons, ih]
      rfl

theorem sequence_map (f : α → Except ε β) (items : List α) : (items.map f).mapM id = items.mapM f := by
  rw [List.mapM_map, Function.id_comp]

/-- Every item has a value exactly if the values are those of the items, one by one. -/
theorem mapM_eq_ok {f : α → Except ε β} {items : List α} {values : List β} :
    items.mapM f = .ok values ↔ List.Forall₂ (fun item value => f item = .ok value) items values := by
  rw [← sequence_map, sequence_eq_ok, ← List.forall₂_eq_eq_eq, List.forall₂_map_left_iff,
    List.forall₂_map_right_iff]

/-- The first item without a value is the one that fails. -/
theorem mapM_eq_error {f : α → Except ε β} {items : List α} {e : ε} :
    items.mapM f = .error e ↔ ∃ front item back, items = front ++ item :: back ∧
      (∀ earlier ∈ front, ∃ value, f earlier = .ok value) ∧ f item = .error e := by
  rw [← sequence_map, sequence_eq_error]
  constructor
  · rintro ⟨values, later, h⟩
    obtain ⟨front, others, rfl, hfront, hothers⟩ := List.map_eq_append_iff.mp h
    obtain ⟨item, back, rfl, hitem, -⟩ := List.map_eq_cons_iff.mp hothers
    refine ⟨front, item, back, rfl, fun earlier hmem => ?_, hitem⟩
    have hvalue : f earlier ∈ values.map .ok := hfront ▸ List.mem_map_of_mem hmem
    obtain ⟨value, -, hvalue⟩ := List.mem_map.mp hvalue
    exact ⟨value, hvalue.symm⟩
  · rintro ⟨front, item, back, rfl, hfront, hitem⟩
    obtain ⟨values, hvalues⟩ : ∃ values : List β, front.map f = values.map .ok := by
      clear hitem
      induction front with
      | nil => exact ⟨[], rfl⟩
      | cons first front ih =>
        obtain ⟨value, hvalue⟩ := hfront first List.mem_cons_self
        obtain ⟨values, hvalues⟩ := ih fun earlier hmem => hfront earlier (List.mem_cons_of_mem first hmem)
        exact ⟨value :: values, by rw [List.map_cons, hvalue, hvalues, List.map_cons]⟩
    exact ⟨values, back.map f, by rw [List.map_append, List.map_cons, hvalues, hitem]⟩

end Sequence

/-! ## Annotated fields -/

/-- The name and the fields of a block that declares fields: an object or interface type, or the
extension of one. -/
def Graphql.Definition.fieldBlock? : Definition → Option (String × List FieldDef)
  | .type _ ⟨name, _, .object _ fields⟩ => some (name, fields)
  | .type _ ⟨name, _, .interface _ fields⟩ => some (name, fields)
  | .extendType ⟨name, _, .object _ fields⟩ => some (name, fields)
  | .extendType ⟨name, _, .interface _ fields⟩ => some (name, fields)
  | _ => none

/-- Whether a field carries the directive. -/
def Graphql.FieldDef.isAnnotated (directive : String) (field : FieldDef) : Bool :=
  field.directives.any (·.name == directive)

/-- The annotated fields of a document, each with the name of its block, in order. -/
def Graphql.Document.annotated (document : Document) (directive : String) :
    List (String × FieldDef) :=
  document.definitions.flatMap fun definition =>
    match definition.fieldBlock? with
    | some (name, fields) => (fields.filter (·.isAnnotated directive)).map (name, ·)
    | none => []

/-- The argument that names the handler: the first one of that name in the first directive. -/
def Graphql.FieldDef.handlerArgument? (field : FieldDef) (directive : String) : Option Argument :=
  (field.directives.find? (·.name == directive)).bind fun found =>
    found.arguments.find? (·.name == handlerArgument)

/-- The handler of a field whose annotation is well formed. -/
def Graphql.FieldDef.handlerLiteral? (field : FieldDef) (directive : String) :
    Option StringLiteral :=
  match field.handlerArgument? directive with
  | some ⟨_, .string literal⟩ => some literal
  | _ => none

/-- What is wrong with an annotation that is not well formed. -/
def Graphql.FieldDef.handlerProblem (field : FieldDef) (directive : String) : AnnotationProblem :=
  match field.handlerArgument? directive with
  | some argument => .wrongKind handlerArgument .string argument.value.kind
  | none => .missingArgument handlerArgument

/-- The error in an annotation that is not well formed: it names the field and the directive. -/
def Graphql.FieldDef.handlerError (field : FieldDef) (directive : String) : LocalizedError :=
  ⟨[field.name, directive].filter (!·.isEmpty), field.handlerProblem directive⟩

/-- What an annotated field yields. -/
def Graphql.FieldDef.finding (directive parent : String) (field : FieldDef) :
    Except LocalizedError Binding :=
  match field.handlerLiteral? directive with
  | some literal => .ok ⟨parent, field.name, literal.text⟩
  | none => .error (field.handlerError directive)

/-! ## Findings -/

theorem atNodes_pair (field directive : String) (problem : AnnotationProblem) :
    LocalizedError.atNodes [some field, some directive] problem
      = ⟨[field, directive].filter (!·.isEmpty), problem⟩ := by
  unfold LocalizedError.atNodes
  cases hf : field.isEmpty <;> cases hd : directive.isEmpty <;>
    simp [List.filterMap, Option.filter, hf, hd]

/-- The arguments of a complete directive are looked up by name like those of the directive. -/
theorem find?_complete (d : Directive) (name : String) :
    (d.arguments.map fun a => (a.name, some a.value)).find? (·.1 == name)
      = (d.arguments.find? (·.name == name)).map fun a => (a.name, some a.value) := by
  rw [List.find?_map]
  rfl

/-- A field that carries the directive yields its finding; another one yields nothing. -/
theorem bindingOf?_eq (directive parent : String) (field : FieldDef) :
    bindingOf? directive parent field
      = if field.isAnnotated directive then some (field.finding directive parent) else none := by
  unfold bindingOf? FieldDef.directive?
  cases hfind : field.directives.find? (·.name == directive) with
  | none =>
    have hnot : field.isAnnotated directive = false := by
      simpa [FieldDef.isAnnotated] using hfind
    rw [hnot]
    rfl
  | some d =>
    have hname : d.name = directive := by simpa using List.find?_some hfind
    have hyes : field.isAnnotated directive = true :=
      List.any_eq_true.mpr ⟨d, List.mem_of_find?_eq_some hfind, by simp [hname]⟩
    have hargument : field.handlerArgument? directive
        = d.arguments.find? (·.name == handlerArgument) := by
      rw [FieldDef.handlerArgument?, hfind]
      rfl
    rw [hyes, if_pos rfl, Option.map_some]
    -- the directive found carries the name that is looked for, which the error texts quote
    unfold Directive.handler PartialDirective.argument Directive.complete FieldDef.finding
      FieldDef.handlerLiteral? FieldDef.handlerError FieldDef.handlerProblem
    simp only [find?_complete, hargument, hname]
    cases d.arguments.find? (·.name == handlerArgument) with
    | none => simp [atNodes_pair, Except.map]
    | some a =>
      obtain ⟨_, value⟩ := a
      cases value <;> simp [atNodes_pair, Except.map, Value.denote?]

theorem fields_eq_fieldBlock? (definition : Definition) :
    definition.fields = match definition.fieldBlock? with
      | some (name, fields) => fields.map (name, ·)
      | none => [] := by
  cases definition with
  | type description decl => obtain ⟨name, directives, body⟩ := decl; cases body <;> rfl
  | extendType decl => obtain ⟨name, directives, body⟩ := decl; cases body <;> rfl
  | _ => rfl

/-- The annotated fields are fields of the document. -/
theorem annotated_eq_filter (document : Document) (directive : String) :
    document.annotated directive = document.fields.filter (·.2.isAnnotated directive) := by
  unfold Document.annotated Document.fields
  rw [List.filter_flatMap]
  congr 1
  funext definition
  rw [fields_eq_fieldBlock?]
  cases definition.fieldBlock? with
  | none => rfl
  | some block =>
    rw [List.filter_map]
    rfl

theorem filterMap_ite_some {α β : Type} (p : α → Bool) (f : α → β) (xs : List α) :
    xs.filterMap (fun x => if p x then some (f x) else none) = (xs.filter p).map f := by
  induction xs with
  | nil => rfl
  | cons x xs ih =>
    rw [List.filterMap_cons, List.filter_cons]
    cases p x <;> simp [ih]

/-- The findings of a document are those of its annotated fields. -/
theorem findings_eq (document : Document) (directive : String) :
    findings document directive
      = (document.annotated directive).map fun p => p.2.finding directive p.1 := by
  unfold findings Document.fields Document.annotated
  rw [List.filterMap_flatMap, List.map_flatMap]
  congr 1
  funext definition
  rw [fields_eq_fieldBlock?]
  cases definition.fieldBlock? with
  | none => rfl
  | some block =>
    obtain ⟨name, fields⟩ := block
    simp only [List.filterMap_map, List.map_map, bindingOf?_eq]
    exact filterMap_ite_some _ _ _

/-! ## The rewritten document -/

/-- A field without the directive: the other directives stay, in their order. -/
def Graphql.FieldDef.Stripped (directive : String) (before after : FieldDef) : Prop :=
  after = { before with directives := before.directives.filter (·.name ≠ directive) }

/-- A definition in which the fields of an object or interface block have lost the directive. The
directives of the block itself stay, and a definition of any other kind stays as it is. -/
inductive Graphql.Definition.Stripped (directive : String) : Definition → Definition → Prop where
  | object {description name directives interfaces before after} :
      List.Forall₂ (FieldDef.Stripped directive) before after →
      Stripped directive (.type description ⟨name, directives, .object interfaces before⟩)
        (.type description ⟨name, directives, .object interfaces after⟩)
  | interface {description name directives interfaces before after} :
      List.Forall₂ (FieldDef.Stripped directive) before after →
      Stripped directive (.type description ⟨name, directives, .interface interfaces before⟩)
        (.type description ⟨name, directives, .interface interfaces after⟩)
  | objectExtension {name directives interfaces before after} :
      List.Forall₂ (FieldDef.Stripped directive) before after →
      Stripped directive (.extendType ⟨name, directives, .object interfaces before⟩)
        (.extendType ⟨name, directives, .object interfaces after⟩)
  | interfaceExtension {name directives interfaces before after} :
      List.Forall₂ (FieldDef.Stripped directive) before after →
      Stripped directive (.extendType ⟨name, directives, .interface interfaces before⟩)
        (.extendType ⟨name, directives, .interface interfaces after⟩)
  | other {definition} : definition.fieldBlock? = none → Stripped directive definition definition

theorem fields_stripped (directive : String) (fields : List FieldDef) :
    List.Forall₂ (FieldDef.Stripped directive) fields
      (fields.map (·.withoutDirective directive)) := by
  rw [List.forall₂_map_right_iff]
  refine List.forall₂_same.mpr fun field _ => ?_
  unfold FieldDef.Stripped FieldDef.withoutDirective
  congr 2
  funext d
  exact Bool.eq_iff_iff.mpr (by simp)

theorem definition_stripped (directive : String) (definition : Definition) :
    definition.Stripped directive (definition.mapFields (·.withoutDirective directive)) := by
  cases definition with
  | type description decl =>
    obtain ⟨name, directives, body⟩ := decl
    cases body with
    | object interfaces fields => exact .object (fields_stripped directive fields)
    | interface interfaces fields => exact .interface (fields_stripped directive fields)
    | _ => exact .other rfl
  | extendType decl =>
    obtain ⟨name, directives, body⟩ := decl
    cases body with
    | object interfaces fields => exact .objectExtension (fields_stripped directive fields)
    | interface interfaces fields => exact .interfaceExtension (fields_stripped directive fields)
    | _ => exact .other rfl
  | _ => exact .other rfl

/-! ## Scanning -/

theorem scan_eq_ok {document : Document} {directive : String} {result : ScanResult} :
    scan document directive = .ok result ↔
      findings document directive = result.bindings.map .ok ∧
        result.document = document.mapFields (·.withoutDirective directive) ∧
        result.emptiedTypes = [] := by
  unfold scan
  rw [← sequence_eq_ok]
  obtain ⟨bindings, rewritten, emptied⟩ := result
  cases (findings document directive).mapM id with
  | error e => exact ⟨fun h => (by cases h), fun h => (by cases h.1)⟩
  | ok found =>
    constructor
    · intro h
      cases h
      exact ⟨rfl, rfl, rfl⟩
    · rintro ⟨hb, hd, he⟩
      cases hb
      cases hd
      cases he
      rfl

theorem scan_eq_error {document : Document} {directive : String} {e : LocalizedError} :
    scan document directive = .error e ↔
      ∃ (bindings : List Binding) (later : List (Except LocalizedError Binding)),
        findings document directive = bindings.map .ok ++ .error e :: later := by
  unfold scan
  rw [← sequence_eq_error]
  cases (findings document directive).mapM id with
  | error e' => exact ⟨fun h => (by cases h; rfl), fun h => (by cases h; rfl)⟩
  | ok found => exact ⟨fun h => (by cases h), fun h => (by cases h)⟩

theorem finding_eq_ok {directive parent : String} {field : FieldDef} {b : Binding} :
    field.finding directive parent = .ok b ↔
      b.parentType = parent ∧ b.fieldName = field.name ∧
        (field.handlerLiteral? directive).map (·.text) = some b.handler := by
  unfold FieldDef.finding
  obtain ⟨p, f, h⟩ := b
  cases field.handlerLiteral? directive with
  | none => simp
  | some literal =>
    simp only [Except.ok.injEq, Binding.mk.injEq, Option.map_some, Option.some.injEq]
    exact ⟨fun ⟨hp, hf, hh⟩ => ⟨hp.symm, hf.symm, hh⟩, fun ⟨hp, hf, hh⟩ => ⟨hp.symm, hf.symm, hh⟩⟩

theorem finding_eq_error {directive parent : String} {field : FieldDef} {e : LocalizedError} :
    field.finding directive parent = .error e ↔
      field.handlerLiteral? directive = none ∧ e = field.handlerError directive := by
  unfold FieldDef.finding
  cases field.handlerLiteral? directive <;> simp [eq_comm]

theorem finding_isOk {directive parent : String} {field : FieldDef} :
    (∃ b, field.finding directive parent = .ok b) ↔ (field.handlerLiteral? directive).isSome := by
  unfold FieldDef.finding
  cases field.handlerLiteral? directive <;> simp

/-- A scan succeeds exactly if every annotated field names its handler by a string. -/
theorem scan_succeeds_iff (document : Document) (directive : String) :
    (∃ result, scan document directive = .ok result) ↔
      ∀ p ∈ document.annotated directive, (p.2.handlerLiteral? directive).isSome := by
  constructor
  · rintro ⟨result, h⟩ p hp
    have hfound := (scan_eq_ok.mp h).1
    rw [findings_eq] at hfound
    have hmem : p.2.finding directive p.1 ∈ result.bindings.map Except.ok :=
      hfound ▸ List.mem_map_of_mem hp
    obtain ⟨b, _, hb⟩ := List.mem_map.mp hmem
    exact finding_isOk.mp ⟨b, hb.symm⟩
  · intro h
    -- every finding is a binding; the scan collects them
    have hall : ∃ bindings : List Binding,
        findings document directive = bindings.map .ok := by
      rw [findings_eq]
      generalize document.annotated directive = fields at h
      induction fields with
      | nil => exact ⟨[], rfl⟩
      | cons p fields ih =>
        obtain ⟨b, hb⟩ : ∃ b, p.2.finding directive p.1 = .ok b :=
          finding_isOk.mpr (h p List.mem_cons_self)
        obtain ⟨bindings, hrest⟩ := ih fun q hq => h q (List.mem_cons_of_mem p hq)
        exact ⟨b :: bindings, by rw [List.map_cons, hb, hrest, List.map_cons]⟩
    obtain ⟨bindings, hbindings⟩ := hall
    exact ⟨⟨bindings, _, []⟩, scan_eq_ok.mpr ⟨hbindings, rfl, rfl⟩⟩

/-- The bindings of a scan are the handlers of the annotated fields, one for each. -/
theorem scan_bindings {document : Document} {directive : String} {result : ScanResult}
    (h : scan document directive = .ok result) :
    List.Forall₂
      (fun p b => b.parentType = p.1 ∧ b.fieldName = p.2.name ∧
        (p.2.handlerLiteral? directive).map (·.text) = some b.handler)
      (document.annotated directive) result.bindings := by
  have hfound := (scan_eq_ok.mp h).1
  rw [findings_eq] at hfound
  have hpairs : List.Forall₂ (fun p b => p.2.finding directive p.1 = .ok b)
      (document.annotated directive) result.bindings := by
    rw [← List.forall₂_eq_eq_eq, List.forall₂_map_left_iff, List.forall₂_map_right_iff] at hfound
    exact hfound
  exact hpairs.imp fun _ _ hpb => finding_eq_ok.mp hpb

/-- A scan fails with the error of the first annotated field that does not name its handler. -/
theorem scan_first_error {document : Document} {directive : String} {e : LocalizedError}
    (h : scan document directive = .error e) :
    ∃ before parent field after,
      document.annotated directive = before ++ (parent, field) :: after ∧
        (∀ p ∈ before, (p.2.handlerLiteral? directive).isSome) ∧
        field.handlerLiteral? directive = none ∧ e = field.handlerError directive := by
  -- the findings split at the first error, and so do the annotated fields
  obtain ⟨bindings, later, hfound⟩ := scan_eq_error.mp h
  rw [findings_eq] at hfound
  obtain ⟨before, rest, hsplit, hbefore, hrest⟩ := List.map_eq_append_iff.mp hfound
  obtain ⟨⟨parent, field⟩, after, hcons, hfield, -⟩ := List.map_eq_cons_iff.mp hrest
  refine ⟨before, parent, field, after, by rw [hsplit, hcons], ?_, finding_eq_error.mp hfield⟩
  intro p hp
  have hmem : p.2.finding directive p.1 ∈ bindings.map Except.ok :=
    hbefore ▸ List.mem_map_of_mem hp
  obtain ⟨b, _, hb⟩ := List.mem_map.mp hmem
  exact finding_isOk.mp ⟨b, hb.symm⟩

/-- **Scanning is exact.** A scan succeeds exactly if every annotated field names its handler by a
string. It then yields one binding for each annotated field, in order, and the document that has lost
the directive on its fields and nothing else; it empties no type. Otherwise it fails with the error of
the first annotated field that does not name its handler. -/
theorem scan_exact (document : Document) (directive : String) :
    ((∃ result, scan document directive = .ok result) ↔
      ∀ p ∈ document.annotated directive, (p.2.handlerLiteral? directive).isSome) ∧
    (∀ result, scan document directive = .ok result →
      List.Forall₂
        (fun p b => b.parentType = p.1 ∧ b.fieldName = p.2.name ∧
          (p.2.handlerLiteral? directive).map (·.text) = some b.handler)
        (document.annotated directive) result.bindings ∧
      List.Forall₂ (Definition.Stripped directive) document.definitions
        result.document.definitions ∧
      result.emptiedTypes = []) ∧
    (∀ e, scan document directive = .error e →
      ∃ before parent field after,
        document.annotated directive = before ++ (parent, field) :: after ∧
          (∀ p ∈ before, (p.2.handlerLiteral? directive).isSome) ∧
          field.handlerLiteral? directive = none ∧ e = field.handlerError directive) := by
  refine ⟨scan_succeeds_iff document directive, fun result h => ⟨scan_bindings h, ?_, ?_⟩,
    fun e h => scan_first_error h⟩
  · rw [(scan_eq_ok.mp h).2.1]
    show List.Forall₂ _ _ (document.definitions.map _)
    rw [List.forall₂_map_right_iff]
    exact List.forall₂_same.mpr fun definition _ => definition_stripped directive definition
  · exact (scan_eq_ok.mp h).2.2

end ResolverWiring
