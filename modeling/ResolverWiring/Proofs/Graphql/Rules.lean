import Mathlib.Data.List.Basic
import ResolverWiring.Binding.Scan
import ResolverWiring.Graphql.Rules

/-!
# `Proofs.Graphql.Rules` — the rules and what a scan does to a document

A scan takes a directive off fields and leaves all other parts of a document as they are. What is declared keeps its
names and sorts (`Vocabulary.mapFields`), so every part of a document but the fields has the problems that it had. A
field that has lost a directive has at most these: no rule asks for a directive
(`FieldDef.problems_withoutDirective`). So a document without problems has none afterwards
(`Document.problems_withoutDirective`).
-/

namespace ResolverWiring.Graphql

variable {directive : String} {field : FieldDef → FieldDef} {v : Vocabulary}

/-! ## Repetitions -/

/-- No name is found to be repeated exactly if all are new and distinct. -/
theorem repetitions_eq_nil {seen names : List String} :
    repetitions seen names = [] ↔ names.Nodup ∧ ∀ name ∈ names, name ∉ seen := by
  induction names generalizing seen with
  | nil => simp [repetitions]
  | cons name names ih =>
    -- by induction with any names seen before: a name that is new counts as seen for the others
    rw [repetitions]
    split
    · rename_i hseen
      have hmem : name ∈ seen := List.contains_iff_mem.mp hseen
      simp [hmem]
    · rename_i hseen
      have hmem : name ∉ seen := fun h => hseen (List.contains_iff_mem.mpr h)
      rw [ih, List.nodup_cons, List.forall_mem_cons]
      constructor
      · rintro ⟨hnodup, hothers⟩
        refine ⟨⟨fun h => hothers name h List.mem_cons_self, hnodup⟩, hmem, fun other h hother => ?_⟩
        exact hothers other h (List.mem_cons_of_mem name hother)
      · rintro ⟨⟨hnot, hnodup⟩, -, hothers⟩
        refine ⟨hnodup, fun other h hother => ?_⟩
        rcases List.mem_cons.mp hother with rfl | hother
        · exact hnot h
        · exact hothers other h hother

/-! ## The vocabulary -/

/-- A type block with its fields changed. -/
def TypeDecl.mapFields (field : FieldDef → FieldDef) (decl : TypeDecl) : TypeDecl :=
  { decl with body := decl.body.mapFields field }

/-- A vocabulary with the fields of its types changed. -/
def Vocabulary.mapFields (field : FieldDef → FieldDef) (v : Vocabulary) : Vocabulary :=
  { v with types := v.types.map (·.mapFields field) }

/-- Changing the fields of a document changes those of its type blocks. -/
theorem typeDecls_mapFields (field : FieldDef → FieldDef) (definitions : List Definition) :
    typeDecls (definitions.map (·.mapFields field)) = (typeDecls definitions).map (·.mapFields field) := by
  rw [typeDecls, typeDecls, List.filterMap_map, List.map_filterMap]
  refine List.filterMap_congr fun d _ => ?_
  cases d <;> rfl

theorem directiveDefs_mapFields (field : FieldDef → FieldDef) (definitions : List Definition) :
    directiveDefs (definitions.map (·.mapFields field)) = directiveDefs definitions := by
  rw [directiveDefs, directiveDefs, List.filterMap_map]
  refine List.filterMap_congr fun d _ => ?_
  cases d <;> rfl

/-- What is known of a document follows when its fields are changed. -/
theorem Vocabulary.ofDocument_mapFields (field : FieldDef → FieldDef) (d : Document) :
    Vocabulary.ofDocument (d.mapFields field) = (Vocabulary.ofDocument d).mapFields field := by
  rw [ofDocument, Document.mapFields, typeDecls_mapFields, directiveDefs_mapFields]
  rfl

@[simp] theorem Vocabulary.typeNames_mapFields : (v.mapFields field).typeNames = v.typeNames := by
  rw [typeNames, mapFields, List.map_map]
  rfl

@[simp] theorem Vocabulary.type?_mapFields (name : String) :
    (v.mapFields field).type? name = (v.type? name).map (·.mapFields field) := by
  rw [type?, mapFields, ← List.map_reverse, List.find?_map]
  rfl

@[simp] theorem TypeBody.sort_mapFields (body : TypeBody) : (body.mapFields field).sort = body.sort := by
  cases body <;> rfl

/-! ## Directives and names -/

@[simp] theorem directivesProblems_mapFields (location : DirectiveLocation) (directives : List Directive) :
    directivesProblems (v.mapFields field) location directives = directivesProblems v location directives := rfl

@[simp] theorem repeatedDirectiveProblems_mapFields (before directives : List Directive) :
    repeatedDirectiveProblems (v.mapFields field) before directives
      = repeatedDirectiveProblems v before directives := rfl

@[simp] theorem typeProblems_mapFields (inSchema : Bool) (name : String) :
    typeProblems (v.mapFields field) inSchema name = typeProblems v inSchema name := by
  rw [typeProblems, typeProblems, Vocabulary.typeNames_mapFields]

@[simp] theorem namesProblems_mapFields (names : List String) :
    namesProblems (v.mapFields field) names = namesProblems v names :=
  List.flatMap_congr fun name _ => typeProblems_mapFields true name

/-- Leaving out directives does not make one of the others repeated. -/
theorem repeatedDirectiveProblems_of_sublist {directives kept : List Directive}
    (hkept : kept.Sublist directives) (h : repeatedDirectiveProblems v [] directives = []) :
    repeatedDirectiveProblems v [] kept = [] := by
  simp only [repeatedDirectiveProblems, List.map_eq_nil_iff, repetitions_eq_nil] at h ⊢
  obtain ⟨hnodup, -⟩ := h
  exact ⟨hnodup.sublist ((hkept.filter _).map _), fun _ _ => List.not_mem_nil⟩

/-- Leaving out directives makes no problem with those that stay. -/
theorem directivesProblems_of_sublist {location : DirectiveLocation} {directives kept : List Directive}
    (hkept : kept.Sublist directives) (h : directivesProblems v location directives = []) :
    directivesProblems v location kept = [] :=
  List.flatMap_eq_nil_iff.mpr fun d hd => List.flatMap_eq_nil_iff.mp h d (hkept.subset hd)

/-! ## Parts of type definitions -/

@[simp] theorem inputsProblems_mapFields (location : DirectiveLocation) (inputs : List InputValueDef) :
    inputs.flatMap (·.problems (v.mapFields field) location) = inputs.flatMap (·.problems v location) := by
  refine List.flatMap_congr fun i _ => ?_
  simp only [InputValueDef.problems, repeatedDirectiveProblems_mapFields, typeProblems_mapFields,
    directivesProblems_mapFields]

/-- A field that loses a directive gets no problems. -/
theorem FieldDef.problems_withoutDirective {f : FieldDef} (h : f.problems v = []) :
    (f.withoutDirective directive).problems (v.mapFields field) = [] := by
  have hkept : (f.directives.filter (·.name != directive)).Sublist f.directives := List.filter_sublist
  simp only [FieldDef.problems, List.append_eq_nil_iff] at h
  obtain ⟨⟨⟨hrepeated, harguments⟩, htype⟩, hdirectives⟩ := h
  -- two rules look at the directives of the field, and neither asks for one
  simp only [FieldDef.problems, FieldDef.withoutDirective, repeatedDirectiveProblems_mapFields,
    inputsProblems_mapFields, typeProblems_mapFields, directivesProblems_mapFields, harguments, htype,
    repeatedDirectiveProblems_of_sublist hkept hrepeated, directivesProblems_of_sublist hkept hdirectives,
    List.append_nil]

theorem fieldsProblems_withoutDirective {fields : List FieldDef} (h : fields.flatMap (·.problems v) = []) :
    (fields.map (·.withoutDirective directive)).flatMap (·.problems (v.mapFields field)) = [] := by
  rw [List.flatMap_map]
  exact List.flatMap_eq_nil_iff.mpr fun f hf =>
    FieldDef.problems_withoutDirective (List.flatMap_eq_nil_iff.mp h f hf)

@[simp] theorem valuesProblems_mapFields (values : List EnumValueDef) :
    values.flatMap (·.problems (v.mapFields field)) = values.flatMap (·.problems v) := rfl

/-- Taking a directive off the fields of a type makes no problem inside it. -/
theorem TypeDecl.innerProblems_withoutDirective {extension : Bool} {decl : TypeDecl}
    (h : decl.innerProblems v extension = []) :
    (decl.mapFields (·.withoutDirective directive)).innerProblems (v.mapFields field) extension = [] := by
  obtain ⟨name, directives, body⟩ := decl
  cases body with
  | object interfaces fields | interface interfaces fields =>
    simp only [innerProblems, List.append_eq_nil_iff] at h
    obtain ⟨⟨hinterfaces, hdirectives⟩, hfields⟩ := h
    simp only [innerProblems, mapFields, TypeBody.mapFields, TypeBody.sort, namesProblems_mapFields,
      directivesProblems_mapFields, List.append_eq_nil_iff]
    exact ⟨⟨hinterfaces, hdirectives⟩, fieldsProblems_withoutDirective hfields⟩
  | _ =>
    rw [← h]
    simp only [innerProblems, mapFields, TypeBody.mapFields, TypeBody.sort, namesProblems_mapFields,
      directivesProblems_mapFields, valuesProblems_mapFields, inputsProblems_mapFields]

/-! ## Executable definitions -/

theorem selectionsProblems_eq (selections : List Selection) :
    selectionsProblems v selections = selections.flatMap (·.problems v) := by
  induction selections with
  | nil => rfl
  | cons s selections ih => rw [selectionsProblems, ih, List.flatMap_cons]

/-- Problems of selections are not about fields of types. -/
theorem Selection.problems_mapFields (s : Selection) : s.problems (v.mapFields field) = s.problems v := by
  have hset : ∀ selections : List Selection,
      (∀ item ∈ selections, item.problems (v.mapFields field) = item.problems v) →
      selectionsProblems (v.mapFields field) selections = selectionsProblems v selections := by
    intro selections hitems
    rw [selectionsProblems_eq, selectionsProblems_eq]
    exact List.flatMap_congr hitems
  cases s with
  | field alias? name arguments directives selections =>
    have hnested := hset selections fun item hitem => item.problems_mapFields
    simp only [Selection.problems, hnested, repeatedDirectiveProblems_mapFields, directivesProblems_mapFields]
  | spread fragment directives => simp only [Selection.problems, repeatedDirectiveProblems_mapFields,
      directivesProblems_mapFields]
  | inline on? directives selections =>
    have hnested := hset selections fun item hitem => item.problems_mapFields
    have hcondition : on?.map (typeProblems (v.mapFields field) false) = on?.map (typeProblems v false) :=
      congrArg (Option.map · on?) (funext (typeProblems_mapFields false))
    simp only [Selection.problems, hnested, hcondition, repeatedDirectiveProblems_mapFields,
      directivesProblems_mapFields]

@[simp] theorem selectionsProblems_mapFields (selections : List Selection) :
    selectionsProblems (v.mapFields field) selections = selectionsProblems v selections := by
  rw [selectionsProblems_eq, selectionsProblems_eq]
  exact List.flatMap_congr fun s _ => s.problems_mapFields

theorem Operation.problems_mapFields (o : Operation) : o.problems (v.mapFields field) = o.problems v := by
  have hvariables : o.variableDefs.flatMap (·.problems (v.mapFields field))
      = o.variableDefs.flatMap (·.problems v) := by
    refine List.flatMap_congr fun d _ => ?_
    simp only [VariableDef.problems, repeatedDirectiveProblems_mapFields, typeProblems_mapFields,
      directivesProblems_mapFields]
  simp only [Operation.problems, hvariables, repeatedDirectiveProblems_mapFields, directivesProblems_mapFields,
    selectionsProblems_mapFields]

theorem Fragment.problems_mapFields (f : Fragment) : f.problems (v.mapFields field) = f.problems v := by
  simp only [Fragment.problems, repeatedDirectiveProblems_mapFields, typeProblems_mapFields,
    directivesProblems_mapFields, selectionsProblems_mapFields]

/-! ## Whole definitions -/

@[simp] theorem blocksOf_mapFields (definitions : List Definition) (name : String) :
    blocksOf (definitions.map (·.mapFields field)) name = (blocksOf definitions name).map (·.mapFields field) := by
  have hblocks : (definitions.map (·.mapFields field)).filterMap Definition.typeBlock?
      = (definitions.filterMap Definition.typeBlock?).map (·.mapFields field) := by
    rw [List.filterMap_map, List.map_filterMap]
    refine List.filterMap_congr fun d _ => ?_
    cases d <;> rfl
  rw [blocksOf, hblocks, List.filter_map]
  rfl

theorem TypeBody.valueNames_mapFields (body : TypeBody) : (body.mapFields field).valueNames = body.valueNames := by
  cases body <;> rfl

theorem TypeBody.fieldNames_mapFields (hname : ∀ f, (field f).name = f.name) (body : TypeBody) :
    (body.mapFields field).fieldNames = body.fieldNames := by
  cases body <;> simp [TypeBody.mapFields, TypeBody.fieldNames, hname]

theorem TypeBody.outputFields_mapFields (body : TypeBody) :
    (body.mapFields field).outputFields = body.outputFields.map field := by
  cases body <;> rfl

/-- Whether a field is declared twice depends on the names of fields, which stay. -/
theorem TypeDecl.repeatedProblems_withoutDirective (before : List Definition) (decl : TypeDecl) :
    (decl.mapFields (·.withoutDirective directive)).repeatedProblems
        (before.map (·.mapFields (·.withoutDirective directive)))
      = decl.repeatedProblems before := by
  have hname : ∀ f : FieldDef, (f.withoutDirective directive).name = f.name := fun _ => rfl
  have harguments : ∀ f : FieldDef, (f.withoutDirective directive).arguments = f.arguments := fun _ => rfl
  simp only [repeatedProblems, mapFields, blocksOf_mapFields, List.flatMap_map, TypeBody.valueNames_mapFields,
    TypeBody.fieldNames_mapFields hname, TypeBody.outputFields_mapFields, hname, harguments]

/-- The directives of a type itself are not those of its fields. -/
theorem TypeDecl.directiveProblems_mapFields (before : List Definition) (decl : TypeDecl) :
    (decl.mapFields field).directiveProblems (v.mapFields field) (before.map (·.mapFields field))
      = decl.directiveProblems v before := by
  simp only [directiveProblems, mapFields, blocksOf_mapFields, List.flatMap_map,
    repeatedDirectiveProblems_mapFields]

/-- Whether there is a type to extend, and of which kind, does not depend on its fields. -/
theorem TypeDecl.extensionProblems_mapFields (decl : TypeDecl) :
    (decl.mapFields field).extensionProblems (v.mapFields field) = decl.extensionProblems v := by
  have hsort : ∀ decl : TypeDecl, (decl.mapFields field).body.sort = decl.body.sort := fun decl =>
    TypeBody.sort_mapFields decl.body
  have hname : (decl.mapFields field).name = decl.name := rfl
  rw [extensionProblems, extensionProblems, hname, hsort, Vocabulary.type?_mapFields,
    Vocabulary.typeNames_mapFields]
  cases v.type? decl.name with
  | none => rfl
  | some definition => simp only [Option.map_some, hsort]

/-- The rules for schema blocks look at types by name. -/
theorem schemaProblems_mapFields (before : List Definition) (directives : List Directive) (roots : List RootType) :
    schemaProblems (v.mapFields field) (before.map (·.mapFields field)) directives roots
      = schemaProblems v before directives roots := by
  have hroots : (before.map (·.mapFields field)).flatMap Definition.roots = before.flatMap Definition.roots := by
    rw [List.flatMap_map]
    refine List.flatMap_congr fun d _ => ?_
    cases d <;> rfl
  have hdirectives : (before.map (·.mapFields field)).flatMap Definition.schemaDirectives
      = before.flatMap Definition.schemaDirectives := by
    rw [List.flatMap_map]
    refine List.flatMap_congr fun d _ => ?_
    cases d <;> rfl
  simp only [schemaProblems, rootProblems, hroots, hdirectives, repeatedDirectiveProblems_mapFields,
    directivesProblems_mapFields, namesProblems_mapFields]

/-- The definitions in front declare the same names. -/
theorem any_typeDecls_mapFields (before : List Definition) (name : String) :
    (typeDecls (before.map (·.mapFields field))).any (·.name == name) = (typeDecls before).any (·.name == name) := by
  rw [typeDecls_mapFields, List.any_map]
  rfl

theorem any_isSchema_mapFields (before : List Definition) :
    (before.map (·.mapFields field)).any Definition.isSchema = before.any Definition.isSchema := by
  rw [List.any_map]
  refine congrArg before.any (funext fun d => ?_)
  cases d <;> rfl

/-- Taking a directive off the fields makes no problem, one case for each kind of definition. -/
theorem Definition.problems_withoutDirective {before : List Definition} {d : Definition}
    (h : d.problems v before = []) :
    (d.mapFields (·.withoutDirective directive)).problems (v.mapFields (·.withoutDirective directive))
      (before.map (·.mapFields (·.withoutDirective directive))) = [] := by
  cases d with
  | operation o => exact o.problems_mapFields.trans h
  | fragment f => exact f.problems_mapFields.trans h
  | schema description directives roots =>
    rw [← h]
    show problems _ _ (.schema description directives roots) = _
    simp only [problems, any_isSchema_mapFields, schemaProblems_mapFields]
  | extendSchema directives roots => exact (schemaProblems_mapFields before directives roots).trans h
  | type description decl =>
    have hname : (decl.mapFields (·.withoutDirective directive)).name = decl.name := rfl
    simp only [problems, List.append_eq_nil_iff] at h
    obtain ⟨⟨⟨hsingle, hrepeated⟩, hdirectives⟩, hinner⟩ := h
    show problems _ _ (.type _ (decl.mapFields (·.withoutDirective directive))) = []
    simp only [problems, List.append_eq_nil_iff, hname, any_typeDecls_mapFields,
      TypeDecl.repeatedProblems_withoutDirective, TypeDecl.directiveProblems_mapFields]
    exact ⟨⟨⟨hsingle, hrepeated⟩, hdirectives⟩, TypeDecl.innerProblems_withoutDirective hinner⟩
  | extendType decl =>
    simp only [problems, List.append_eq_nil_iff] at h
    obtain ⟨⟨⟨hrepeated, hdirectives⟩, hextension⟩, hinner⟩ := h
    show problems _ _ (.extendType (decl.mapFields (·.withoutDirective directive))) = []
    simp only [problems, List.append_eq_nil_iff, TypeDecl.repeatedProblems_withoutDirective,
      TypeDecl.directiveProblems_mapFields, TypeDecl.extensionProblems_mapFields]
    exact ⟨⟨⟨hrepeated, hdirectives⟩, hextension⟩, TypeDecl.innerProblems_withoutDirective hinner⟩
  | directive d =>
    rw [← h]
    show problems _ _ (.directive d) = _
    simp only [problems, directiveDefs_mapFields, inputsProblems_mapFields]

/-- The same for all definitions, each with those in front of it. -/
theorem definitionsProblems_withoutDirective {before definitions : List Definition}
    (h : definitionsProblems v before definitions = []) :
    definitionsProblems (v.mapFields (·.withoutDirective directive))
      (before.map (·.mapFields (·.withoutDirective directive)))
      (definitions.map (·.mapFields (·.withoutDirective directive))) = [] := by
  induction definitions generalizing before with
  | nil => rfl
  | cons d definitions ih =>
    rw [definitionsProblems, List.append_eq_nil_iff] at h
    have hothers := ih h.2
    rw [List.map_append] at hothers
    rw [List.map_cons, definitionsProblems, List.append_eq_nil_iff]
    exact ⟨Definition.problems_withoutDirective h.1, hothers⟩

/-- **A document without problems has none when its fields lose a directive.** -/
theorem Document.problems_withoutDirective {d : Document} (h : d.problems = []) :
    (d.mapFields (·.withoutDirective directive)).problems = [] := by
  rw [problems, Vocabulary.ofDocument_mapFields]
  exact definitionsProblems_withoutDirective h

end ResolverWiring.Graphql
