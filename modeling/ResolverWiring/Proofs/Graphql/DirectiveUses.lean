import ResolverWiring.Graphql.Rules
import Mathlib.Data.List.Basic

/-!
# `Proofs.Graphql.DirectiveUses` — the directives in a document

`Document.uses` lists every directive that is used in a document, at whatever place. A document without problems
defines every directive that it uses, or the language does (`Document.isDefined_of_mem_uses`).
-/

namespace ResolverWiring.Graphql

/-! ## Uses -/

/-- A directive, and the place at which it stands. -/
structure DirectiveUse where
  location : DirectiveLocation
  directive : Directive

/-- The uses of directives that stand at one place. -/
def usesAt (location : DirectiveLocation) (directives : List Directive) : List DirectiveUse :=
  directives.map (⟨location, ·⟩)

/-- The uses in an argument definition or input field. -/
def InputValueDef.uses (location : DirectiveLocation) (i : InputValueDef) : List DirectiveUse :=
  usesAt location i.directives

/-- The uses in a field definition. -/
def FieldDef.uses (f : FieldDef) : List DirectiveUse :=
  f.arguments.flatMap (·.uses .argumentDefinition) ++ usesAt .fieldDefinition f.directives

/-- The uses in an enum value. -/
def EnumValueDef.uses (e : EnumValueDef) : List DirectiveUse := usesAt .enumValue e.directives

/-- The uses in the braces of a body. -/
def TypeBody.uses : TypeBody → List DirectiveUse
  | .object _ fields => fields.flatMap FieldDef.uses
  | .interface _ fields => fields.flatMap FieldDef.uses
  | .enum values => values.flatMap EnumValueDef.uses
  | .input fields => fields.flatMap (·.uses .inputFieldDefinition)
  | _ => []

/-- The uses in a type block. -/
def TypeDecl.uses (decl : TypeDecl) : List DirectiveUse :=
  usesAt decl.body.sort.location decl.directives ++ decl.body.uses

mutual

/-- The uses in a selection. -/
def Selection.uses : Selection → List DirectiveUse
  | .field _ _ _ directives selections => usesAt .field directives ++ selectionsUses selections
  | .spread _ directives => usesAt .fragmentSpread directives
  | .inline _ directives selections => usesAt .inlineFragment directives ++ selectionsUses selections

/-- The uses in a selection set. -/
def selectionsUses : List Selection → List DirectiveUse
  | [] => []
  | selection :: others => selection.uses ++ selectionsUses others

end

/-- The uses in a variable. -/
def VariableDef.uses (v : VariableDef) : List DirectiveUse := usesAt .variableDefinition v.directives

/-- The uses in an operation. -/
def Operation.uses (o : Operation) : List DirectiveUse :=
  o.variableDefs.flatMap VariableDef.uses ++ usesAt o.kind.location o.directives
    ++ selectionsUses o.selections

/-- The uses in a fragment. -/
def Fragment.uses (f : Fragment) : List DirectiveUse :=
  usesAt .fragmentDefinition f.directives ++ selectionsUses f.selections

/-- The uses in a definition. -/
def Definition.uses : Definition → List DirectiveUse
  | .operation o => o.uses
  | .fragment f => f.uses
  | .schema _ directives _ => usesAt .schema directives
  | .type _ decl => decl.uses
  | .directive d => d.arguments.flatMap (·.uses .argumentDefinition)
  | .extendSchema directives _ => usesAt .schema directives
  | .extendType decl => decl.uses

/-- The directives that are used in a document, at all places, in order. -/
def Document.uses (d : Document) : List DirectiveUse := d.definitions.flatMap Definition.uses

/-- The names of the directives that are used. -/
def useNames (uses : List DirectiveUse) : List String := uses.map (·.directive.name)

/-- Uses keep their order when they are put together. -/
theorem useNames_append (uses others : List DirectiveUse) :
    useNames (uses ++ others) = useNames uses ++ useNames others := List.map_append

theorem useNames_flatMap {α : Type} (items : List α) (uses : α → List DirectiveUse) :
    useNames (items.flatMap uses) = items.flatMap fun a => useNames (uses a) := List.map_flatMap

/-- Where directives are used does not change their names. -/
theorem useNames_usesAt (location : DirectiveLocation) (directives : List Directive) :
    useNames (usesAt location directives) = directives.map (·.name) := by
  rw [useNames, usesAt, List.map_map]
  rfl

theorem selectionsUses_eq (selections : List Selection) :
    selectionsUses selections = selections.flatMap Selection.uses := by
  induction selections with
  | nil => rfl
  | cons s selections ih => rw [selectionsUses, ih, List.flatMap_cons]

/-! ## Used directives are defined -/

/-- Whether a directive that is used is defined by the vocabulary or by the language. -/
def DirectiveUse.IsDefined (v : Vocabulary) (use : DirectiveUse) : Prop :=
  ∃ definition, v.directive? use.directive.name = some definition

variable {v : Vocabulary}

/-- The rule for known directives looks at every directive of a list. -/
theorem isDefined_of_directivesProblems {location place : DirectiveLocation} {directives : List Directive}
    (h : directivesProblems v place directives = []) :
    ∀ use ∈ usesAt location directives, use.IsDefined v := by
  intro use huse
  obtain ⟨d, hd, rfl⟩ := List.mem_map.mp huse
  have hd := List.flatMap_eq_nil_iff.mp h d hd
  cases hdefined : v.directive? d.name with
  | some definition => exact ⟨definition, hdefined⟩
  | none =>
    -- the first of the rules complains about the name
    simp [Directive.problems, locationProblems, hdefined] at hd

/-- If no item of a list has a problem, the uses of all items are of defined directives. -/
theorem isDefined_of_items {α : Type} {items : List α} {problems : α → List RuleProblem}
    {uses : α → List DirectiveUse} (h : items.flatMap problems = [])
    (hitem : ∀ a ∈ items, problems a = [] → ∀ use ∈ uses a, use.IsDefined v) :
    ∀ use ∈ items.flatMap uses, use.IsDefined v := by
  intro use huse
  obtain ⟨a, ha, huse⟩ := List.mem_flatMap.mp huse
  exact hitem a ha (List.flatMap_eq_nil_iff.mp h a ha) use huse

/-- An argument or input field is looked at with its own directives only. -/
theorem InputValueDef.isDefined_of_mem_uses {location place : DirectiveLocation} {i : InputValueDef}
    (h : i.problems v place = []) : ∀ use ∈ i.uses location, use.IsDefined v := by
  rw [problems, List.append_eq_nil_iff] at h
  exact isDefined_of_directivesProblems h.2

theorem inputs_isDefined {location place : DirectiveLocation} {inputs : List InputValueDef}
    (h : inputs.flatMap (·.problems v place) = []) :
    ∀ use ∈ inputs.flatMap (·.uses location), use.IsDefined v :=
  isDefined_of_items h fun _ _ hi => InputValueDef.isDefined_of_mem_uses hi

/-- The uses of a field are its own and those of its arguments. -/
theorem FieldDef.isDefined_of_mem_uses {f : FieldDef} (h : f.problems v = []) :
    ∀ use ∈ f.uses, use.IsDefined v := by
  simp only [problems, List.append_eq_nil_iff] at h
  obtain ⟨⟨⟨-, harguments⟩, -⟩, hdirectives⟩ := h
  exact List.forall_mem_append.mpr
    ⟨inputs_isDefined harguments, isDefined_of_directivesProblems hdirectives⟩

theorem fields_isDefined {fields : List FieldDef} (h : fields.flatMap (·.problems v) = []) :
    ∀ use ∈ fields.flatMap FieldDef.uses, use.IsDefined v :=
  isDefined_of_items h fun _ _ hf => FieldDef.isDefined_of_mem_uses hf

theorem EnumValueDef.isDefined_of_mem_uses {e : EnumValueDef} (h : e.problems v = []) :
    ∀ use ∈ e.uses, use.IsDefined v := by
  rw [problems, List.append_eq_nil_iff] at h
  exact isDefined_of_directivesProblems h.2

/-- The uses of a type block, one case for each kind of type. -/
theorem TypeDecl.isDefined_of_mem_uses {extension : Bool} {decl : TypeDecl}
    (h : decl.innerProblems v extension = []) : ∀ use ∈ decl.uses, use.IsDefined v := by
  obtain ⟨name, directives, body⟩ := decl
  cases body with
  | scalar =>
    exact List.forall_mem_append.mpr ⟨isDefined_of_directivesProblems h, by simp [TypeBody.uses]⟩
  | object interfaces fields | interface interfaces fields =>
    simp only [innerProblems, List.append_eq_nil_iff] at h
    exact List.forall_mem_append.mpr ⟨isDefined_of_directivesProblems h.1.2, fields_isDefined h.2⟩
  | union members =>
    simp only [innerProblems, List.append_eq_nil_iff] at h
    exact List.forall_mem_append.mpr ⟨isDefined_of_directivesProblems h.1, by simp [TypeBody.uses]⟩
  | enum values =>
    simp only [innerProblems, List.append_eq_nil_iff] at h
    exact List.forall_mem_append.mpr ⟨isDefined_of_directivesProblems h.1,
      isDefined_of_items h.2 fun _ _ he => EnumValueDef.isDefined_of_mem_uses he⟩
  | input fields =>
    simp only [innerProblems, List.append_eq_nil_iff] at h
    exact List.forall_mem_append.mpr ⟨isDefined_of_directivesProblems h.1, inputs_isDefined h.2⟩

mutual

/-- Selections, by induction on them. -/
theorem Selection.isDefined_of_mem_uses {s : Selection} (h : s.problems v = []) :
    ∀ use ∈ s.uses, use.IsDefined v := by
  cases s with
  | field alias? name arguments directives selections =>
    simp only [Selection.problems, List.append_eq_nil_iff] at h
    obtain ⟨⟨-, hdirectives⟩, hselections⟩ := h
    rw [Selection.uses]
    exact List.forall_mem_append.mpr
      ⟨isDefined_of_directivesProblems hdirectives, selections_isDefined hselections⟩
  | spread fragment directives =>
    simp only [Selection.problems, List.append_eq_nil_iff] at h
    rw [Selection.uses]
    exact isDefined_of_directivesProblems h.2
  | inline on? directives selections =>
    simp only [Selection.problems, List.append_eq_nil_iff] at h
    obtain ⟨⟨-, hdirectives⟩, hselections⟩ := h
    rw [Selection.uses]
    exact List.forall_mem_append.mpr
      ⟨isDefined_of_directivesProblems hdirectives, selections_isDefined hselections⟩

theorem selections_isDefined {selections : List Selection} (h : selectionsProblems v selections = []) :
    ∀ use ∈ selectionsUses selections, use.IsDefined v := by
  cases selections with
  | nil =>
    intro use huse
    rw [selectionsUses] at huse
    cases huse
  | cons s selections =>
    rw [selectionsProblems, List.append_eq_nil_iff] at h
    rw [selectionsUses]
    exact List.forall_mem_append.mpr ⟨Selection.isDefined_of_mem_uses h.1, selections_isDefined h.2⟩

end

/-- The uses of an operation are its own, those of its variables and those of its selections. -/
theorem Operation.isDefined_of_mem_uses {o : Operation} (h : o.problems v = []) :
    ∀ use ∈ o.uses, use.IsDefined v := by
  simp only [problems, List.append_eq_nil_iff] at h
  obtain ⟨⟨⟨-, hvariables⟩, hdirectives⟩, hselections⟩ := h
  have hvariable : ∀ d ∈ o.variableDefs, d.problems v = [] → ∀ use ∈ d.uses, use.IsDefined v := by
    intro d _ hd
    rw [VariableDef.problems, List.append_eq_nil_iff] at hd
    exact isDefined_of_directivesProblems hd.2
  exact List.forall_mem_append.mpr ⟨List.forall_mem_append.mpr
    ⟨isDefined_of_items hvariables hvariable, isDefined_of_directivesProblems hdirectives⟩,
    selections_isDefined hselections⟩

theorem Fragment.isDefined_of_mem_uses {f : Fragment} (h : f.problems v = []) :
    ∀ use ∈ f.uses, use.IsDefined v := by
  simp only [problems, List.append_eq_nil_iff] at h
  obtain ⟨⟨-, hdirectives⟩, hselections⟩ := h
  exact List.forall_mem_append.mpr
    ⟨isDefined_of_directivesProblems hdirectives, selections_isDefined hselections⟩

/-- A schema block is looked at with its own directives only. -/
theorem schema_isDefined {before : List Definition} {directives : List Directive} {roots : List RootType}
    (h : schemaProblems v before directives roots = []) :
    ∀ use ∈ usesAt .schema directives, use.IsDefined v := by
  simp only [schemaProblems, List.append_eq_nil_iff] at h
  exact isDefined_of_directivesProblems h.1.2

/-- Definitions, one case for each kind. -/
theorem Definition.isDefined_of_mem_uses {before : List Definition} {d : Definition}
    (h : d.problems v before = []) : ∀ use ∈ d.uses, use.IsDefined v := by
  cases d with
  | operation o => exact Operation.isDefined_of_mem_uses h
  | fragment f => exact Fragment.isDefined_of_mem_uses h
  | schema description directives roots =>
    rw [problems, List.append_eq_nil_iff] at h
    exact schema_isDefined h.2
  | type description decl =>
    simp only [problems, List.append_eq_nil_iff] at h
    exact TypeDecl.isDefined_of_mem_uses h.2
  | directive d =>
    simp only [problems, List.append_eq_nil_iff] at h
    exact inputs_isDefined h.2
  | extendSchema directives roots => exact schema_isDefined h
  | extendType decl =>
    simp only [problems, List.append_eq_nil_iff] at h
    exact TypeDecl.isDefined_of_mem_uses h.2

/-- The rules go through the definitions one by one, each with those in front of it. -/
theorem definitions_isDefined {before definitions : List Definition}
    (h : definitionsProblems v before definitions = []) :
    ∀ use ∈ definitions.flatMap Definition.uses, use.IsDefined v := by
  induction definitions generalizing before with
  | nil =>
    intro use huse
    cases huse
  | cons d definitions ih =>
    rw [definitionsProblems, List.append_eq_nil_iff] at h
    rw [List.flatMap_cons]
    exact List.forall_mem_append.mpr ⟨Definition.isDefined_of_mem_uses h.1, ih h.2⟩

/-- **No directive is used without a definition** in a document that has no problems. -/
theorem Document.isDefined_of_mem_uses {d : Document} (h : d.problems = []) :
    ∀ use ∈ d.uses, use.IsDefined (.ofDocument d) := definitions_isDefined h

end ResolverWiring.Graphql
