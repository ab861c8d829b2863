import ResolverWiring.Graphql.Schema.Check
import ResolverWiring.Graphql.Schema.Construction
import ResolverWiring.Proofs.Graphql.Printer
import ResolverWiring.Proofs.Graphql.Rules

/-!
# `Proofs.Graphql.Schema` — schemas and what a scan does to a document

The schema of a document whose fields have lost a directive has the types of the schema of the document, with fields
that have lost it (`Schema.ofDocument_mapFields`). What a name stands for does not depend on fields, so input types
are read as before, and so are defaults (`Schema.inputType_mapFields`).

A schema that can be built can be built afterwards (`Schema.buildFault?_withoutDirective`), and has the problems that
it had (`Schema.problems_withoutDirective`).
-/

namespace ResolverWiring.Graphql

variable {directive : String} {field : FieldDef → FieldDef} {s : Schema}

/-! ## The schema of a document with other fields -/

/-- A type with its fields changed. -/
def SchemaType.mapFields (field : FieldDef → FieldDef) (t : SchemaType) : SchemaType :=
  { t with body := t.body.mapFields field }

/-- A schema with the fields of its types changed. -/
def Schema.mapFields (field : FieldDef → FieldDef) (s : Schema) : Schema :=
  { s with types := s.types.map (·.mapFields field) }

/-- Fields may be changed before or after those of an extension are added. -/
theorem TypeBody.extend_mapFields (body added : TypeBody) :
    (body.extend added).mapFields field = (body.mapFields field).extend (added.mapFields field) := by
  cases body <;> cases added <;> simp [TypeBody.extend, TypeBody.mapFields]

/-- The extensions of a type are found by its name, which stays. -/
theorem extensionsOf_mapFields (definitions : List Definition) (name : String) :
    extensionsOf (definitions.map (·.mapFields field)) name
      = (extensionsOf definitions name).map (·.mapFields field) := by
  rw [extensionsOf, extensionsOf, List.filterMap_map, List.map_filterMap]
  refine List.filterMap_congr fun d _ => ?_
  cases d with
  | extendType decl =>
    show (if decl.name = name then _ else _) = (if decl.name = name then some decl else none).map _
    split <;> rfl
  | _ => rfl

theorem TypeDecl.extended_mapFields (definitions : List Definition) (decl : TypeDecl) :
    (decl.mapFields field).extended (definitions.map (·.mapFields field))
      = (decl.extended definitions).mapFields field := by
  have hfold : ∀ (extensions : List TypeDecl) (body : TypeBody),
      (extensions.map (·.mapFields field)).foldl (fun body extension => body.extend extension.body)
        (body.mapFields field)
      = (extensions.foldl (fun body extension => body.extend extension.body) body).mapFields field := by
    intro extensions
    induction extensions with
    | nil => intro body; rfl
    | cons extension extensions ih =>
      intro body
      rw [List.map_cons, List.foldl_cons, List.foldl_cons, ← ih, TypeBody.extend_mapFields]
      rfl
  have hname : (decl.mapFields field).name = decl.name := rfl
  rw [TypeDecl.extended, TypeDecl.extended, hname, extensionsOf_mapFields]
  exact congrArg (SchemaType.mk decl.name decl.directives) (hfold _ decl.body)

namespace Schema

/-- Root types are named in schema blocks, which have no fields. -/
theorem namedRoots_mapFields (definitions : List Definition) :
    namedRoots (definitions.map (·.mapFields field)) = namedRoots definitions := by
  rw [namedRoots, namedRoots, List.flatMap_map, List.flatMap_map]
  refine congrArg₂ (· ++ ·) ?_ ?_
  · refine List.flatMap_congr fun d _ => ?_
    cases d <;> rfl
  · refine List.flatMap_congr fun d _ => ?_
    cases d <;> rfl

theorem hasSchemaBlock_mapFields (definitions : List Definition) :
    hasSchemaBlock (definitions.map (·.mapFields field)) = hasSchemaBlock definitions := by
  rw [hasSchemaBlock, hasSchemaBlock, List.any_map]
  refine congrArg definitions.any (funext fun d => ?_)
  cases d <;> rfl

/-- The schema of a document with other fields is the schema with these fields. -/
theorem ofDocument_mapFields (field : FieldDef → FieldDef) (d : Document) :
    ofDocument (d.mapFields field) = (ofDocument d).mapFields field := by
  have htypes : ((typeDecls (d.definitions.map (·.mapFields field))).filter
        fun decl => (builtInSort? decl.name).isNone).map (·.extended (d.definitions.map (·.mapFields field)))
      = (((typeDecls d.definitions).filter fun decl => (builtInSort? decl.name).isNone).map
        (·.extended d.definitions)).map (·.mapFields field) := by
    rw [typeDecls_mapFields, List.filter_map, List.map_map, List.map_map]
    exact List.map_congr_left fun decl _ => decl.extended_mapFields d.definitions
  have hroots : (conventionalRoots.filter fun root =>
        (typeDecls (d.definitions.map (·.mapFields field))).any (·.name == root.type))
      = conventionalRoots.filter fun root => (typeDecls d.definitions).any (·.name == root.type) :=
    List.filter_congr fun root _ => any_typeDecls_mapFields d.definitions root.type
  simp only [ofDocument, Document.mapFields, mapFields, htypes, hroots, directiveDefs_mapFields,
    namedRoots_mapFields, hasSchemaBlock_mapFields]

/-! ## What names stand for -/

@[simp] theorem type?_mapFields (name : String) :
    (s.mapFields field).type? name = (s.type? name).map (·.mapFields field) := by
  rw [type?, mapFields, List.find?_map]
  rfl

@[simp] theorem body?_mapFields (name : String) :
    (s.mapFields field).body? name = (s.body? name).map (·.mapFields field) := by
  rw [body?, type?_mapFields, body?, Option.map_map, Option.map_map]
  rfl

@[simp] theorem sort?_mapFields (name : String) : (s.mapFields field).sort? name = s.sort? name := by
  rw [sort?, sort?, body?_mapFields, Option.map_map]
  congr 1
  refine congrArg (Option.map · _) (funext fun body => ?_)
  exact TypeBody.sort_mapFields body

@[simp] theorem isInput_mapFields (type : TypeRef) : (s.mapFields field).isInput type = s.isInput type := by
  simp only [isInput, sort?_mapFields]

@[simp] theorem isOutput_mapFields (type : TypeRef) : (s.mapFields field).isOutput type = s.isOutput type := by
  simp only [isOutput, sort?_mapFields]

@[simp] theorem inputFields_mapFields (name : String) :
    (s.mapFields field).inputFields name = s.inputFields name := by
  rw [inputFields, inputFields, body?_mapFields]
  cases s.body? name with
  | none => rfl
  | some body => cases body <;> rfl

@[simp] theorem enumValues_mapFields (name : String) : (s.mapFields field).enumValues name = s.enumValues name := by
  rw [enumValues, enumValues, body?_mapFields]
  cases s.body? name with
  | none => rfl
  | some body => cases body <;> rfl

end Schema

/-! ## Literals and input types -/

section Reading

variable {inputType : String → Except BuildFault (List InputField)}

theorem readItems_eq (items : List Value) :
    readItems s inputType items = items.map (·.read s inputType) := by
  induction items with
  | nil => rfl
  | cons item items ih => rw [readItems, ih, List.map_cons]

theorem readFields_eq (fields : List (String × Value)) :
    readFields s inputType fields = fields.map fun field => (field.1, field.2.read s inputType) := by
  induction fields with
  | nil => rfl
  | cons field fields ih =>
    obtain ⟨name, value⟩ := field
    rw [readFields, ih, List.map_cons]

/-- Whether a type takes a value depends on its kind, not on output fields. -/
theorem takesNamed_mapFields (name : String) (value : Value) (given? : Option (List (String × LiteralReader))) :
    takesNamed (s.mapFields field) inputType name value given? = takesNamed s inputType name value given? := by
  simp only [takesNamed, Schema.sort?_mapFields, Schema.enumValues_mapFields]

/-- A type takes a literal whatever the fields of object types are. -/
theorem Value.read_mapFields (value : Value) :
    value.read (s.mapFields field) inputType = value.read s inputType := by
  induction value with
  | list items ih =>
    have hitems : readItems (s.mapFields field) inputType items = readItems s inputType items := by
      rw [readItems_eq, readItems_eq]
      exact List.map_congr_left ih
    simp only [Value.read, hitems, takesNamed_mapFields]
  | object fields ih =>
    have hfields : readFields (s.mapFields field) inputType fields = readFields s inputType fields := by
      rw [readFields_eq, readFields_eq]
      exact List.map_congr_left fun f hf => by rw [ih f hf]
    simp only [Value.read, hfields, takesNamed_mapFields]
  | _ => simp only [Value.read, takesNamed_mapFields]

end Reading

namespace Schema

/-- Input fields are none of the fields that are changed. -/
theorem inputField_mapFields (inputType : String → Except BuildFault (List InputField)) (wrong : BuildFault)
    (path : List String) (i : InputValueDef) :
    (s.mapFields field).inputField inputType wrong path i = s.inputField inputType wrong path i := by
  simp only [inputField, Value.read_mapFields, isInput_mapFields]

/-- Input types are resolved alike, by induction on the rounds that are left. -/
theorem resolveInput_mapFields (bound : Nat) (name : String) :
    (s.mapFields field).resolveInput bound name = s.resolveInput bound name := by
  induction bound generalizing name with
  | zero => rfl
  | succ bound ih =>
    have hresolve : (s.mapFields field).resolveInput bound = s.resolveInput bound := funext ih
    have hfield : ∀ path, (s.mapFields field).inputField (s.resolveInput bound) .inputFieldType path
        = s.inputField (s.resolveInput bound) .inputFieldType path := fun path =>
      funext (inputField_mapFields (s.resolveInput bound) .inputFieldType path)
    rw [resolveInput, resolveInput, inputFields_mapFields, hresolve, hfield]

@[simp] theorem inputType_mapFields : (s.mapFields field).inputType = s.inputType := by
  have hlength : (s.mapFields field).types.length = s.types.length := List.length_map _
  funext name
  rw [inputType, hlength]
  exact resolveInput_mapFields s.types.length name

end Schema

theorem InputValueDef.mustBeGiven_mapFields (i : InputValueDef) :
    i.mustBeGiven (s.mapFields field) = i.mustBeGiven s := by
  simp only [mustBeGiven, Value.read_mapFields, Schema.inputType_mapFields]

/-! ## Building -/

namespace Schema

@[simp] theorem argumentFault?_mapFields (path : List String) :
    (s.mapFields field).argumentFault? path = s.argumentFault? path := by
  funext i
  simp only [argumentFault?, inputField_mapFields, inputType_mapFields]

/-- Nothing is at fault in items that are changed if nothing was at fault in them. -/
theorem findSome?_map_eq_none {α β γ : Type} {items : List α} {change : α → γ} {f : α → Option β}
    {f' : γ → Option β} (h : items.findSome? f = none) (hf : ∀ a ∈ items, f a = none → f' (change a) = none) :
    (items.map change).findSome? f' = none := by
  rw [List.findSome?_eq_none_iff] at h ⊢
  exact List.forall_mem_map.mpr fun a ha => hf a ha (h a ha)

/-- Directives of another name are found as before. -/
theorem find?_filter_name (directives : List Directive) (directive name : String) :
    (directives.filter (·.name != directive)).find? (·.name == name)
      = if name = directive then none else directives.find? (·.name == name) := by
  induction directives with
  | nil => simp
  | cons d directives ih =>
    rw [List.filter_cons, List.find?_cons]
    by_cases hd : d.name = directive
    · subst hd
      by_cases hname : name = d.name
      · subst hname
        simp
      · have hne : (d.name == name) = false := beq_eq_false_iff_ne.mpr (Ne.symm hname)
        simpa [hname, hne] using ih
    · have hkept : (d.name != directive) = true := bne_iff_ne.mpr hd
      rw [if_pos hkept, List.find?_cons]
      by_cases hname : d.name = name
      · subst hname
        simp [hd]
      · have hne : (d.name == name) = false := beq_eq_false_iff_ne.mpr hname
        simpa only [hne] using ih

/-- A deprecation that is in order stays so when other directives, or it itself, are taken off. -/
theorem deprecationFault?_filter_name {path : List String} {directives : List Directive}
    (h : deprecationFault? path directives = none) :
    deprecationFault? path (directives.filter (·.name != directive)) = none := by
  simp only [deprecationFault?, Option.map_eq_none_iff, stringFault?] at h ⊢
  rw [find?_filter_name]
  -- the directive that is taken off may be `@deprecated` itself
  by_cases hname : "deprecated" = directive
  · rw [if_pos hname]
    rfl
  · rwa [if_neg hname]

/-- Taking a directive off a field makes no fault in building it. -/
theorem fieldFault?_withoutDirective {type : String} {f : FieldDef} (h : s.fieldFault? type f = none) :
    (s.mapFields field).fieldFault? type (f.withoutDirective directive) = none := by
  simp only [fieldFault?, Option.or_eq_none_iff] at h
  obtain ⟨⟨harguments, hdirectives⟩, htype⟩ := h
  simp only [fieldFault?, FieldDef.withoutDirective, Option.or_eq_none_iff, argumentFault?_mapFields,
    isOutput_mapFields]
  exact ⟨⟨harguments, deprecationFault?_filter_name hdirectives⟩, htype⟩

theorem leafFault?_mapFields (t : SchemaType) : leafFault? (t.mapFields field) = leafFault? t := by
  obtain ⟨name, directives, body⟩ := t
  cases body <;> rfl

/-- Taking a directive off the fields of a type makes no fault in building it. -/
theorem typeFault?_withoutDirective {t : SchemaType} (h : s.typeFault? t = none) :
    (s.mapFields field).typeFault? (t.mapFields (·.withoutDirective directive)) = none := by
  obtain ⟨name, directives, body⟩ := t
  cases body with
  | object interfaces fields | interface interfaces fields =>
    simp only [typeFault?, SchemaType.mapFields, TypeBody.mapFields, sort?_mapFields] at h ⊢
    split at h
    · rename_i hinterfaces
      rw [if_pos hinterfaces, Option.map_eq_none_iff]
      exact findSome?_map_eq_none (Option.map_eq_none_iff.mp h) fun f _ hf => fieldFault?_withoutDirective hf
    · cases h
  | _ =>
    simp only [typeFault?, SchemaType.mapFields, TypeBody.mapFields, sort?_mapFields, inputType_mapFields] at h ⊢
    try exact h

/-- A schema that can be built still can without a directive on its fields. -/
theorem buildFault?_withoutDirective (h : s.buildFault? = none) :
    (s.mapFields (·.withoutDirective directive)).buildFault? = none := by
  simp only [buildFault?, Option.or_eq_none_iff] at h ⊢
  obtain ⟨⟨hleaves, hdirectives⟩, htypes⟩ := h
  refine ⟨⟨?_, ?_⟩, ?_⟩
  · exact findSome?_map_eq_none hleaves fun t _ ht => (leafFault?_mapFields t).trans ht
  · have hsame : (s.mapFields (·.withoutDirective directive)).directiveFault? = s.directiveFault? := by
      funext d
      simp only [directiveFault?, argumentFault?_mapFields]
    rw [hsame]
    exact hdirectives
  · exact findSome?_map_eq_none htypes fun t _ ht => typeFault?_withoutDirective ht

/-! ## Problems -/

@[simp] theorem inputProblems_mapFields (isField : Bool) (owner : String) :
    (s.mapFields field).inputProblems isField owner = s.inputProblems isField owner := by
  funext i
  rw [inputProblems, inputProblems, InputValueDef.mustBeGiven_mapFields]

/-- The checks of a built schema look at the names and types of fields only. -/
theorem fieldsProblems_withoutDirective (type : String) (fields : List FieldDef) :
    (s.mapFields field).fieldsProblems type (fields.map (·.withoutDirective directive))
      = s.fieldsProblems type fields := by
  rw [fieldsProblems, fieldsProblems, List.isEmpty_map, List.flatMap_map]
  refine congrArg₂ (· ++ ·) rfl (List.flatMap_congr fun f _ => ?_)
  simp only [fieldProblems, FieldDef.withoutDirective, inputProblems_mapFields]

@[simp] theorem interfacesOf_mapFields (name : String) :
    (s.mapFields field).interfacesOf name = s.interfacesOf name := by
  rw [interfacesOf, interfacesOf, body?_mapFields]
  cases s.body? name with
  | none => rfl
  | some body => cases body <;> rfl

theorem isMember_mapFields (name abstraction : String) :
    (s.mapFields field).isMember name abstraction = s.isMember name abstraction := by
  rw [isMember, isMember, body?_mapFields, interfacesOf_mapFields]
  cases s.body? abstraction with
  | none => rfl
  | some body => cases body <;> rfl

/-- Subtypes, by the forms of both types. -/
theorem isSubtype_mapFields (a b : TypeRef) : (s.mapFields field).isSubtype a b = s.isSubtype a b := by
  induction a generalizing b with
  | named name required => cases b <;> simp [isSubtype, isMember_mapFields]
  | list item required ih => cases b <;> simp [isSubtype, ih]

/-- Arguments are compared with those of the interface by name and type. -/
theorem argumentProblems_withoutDirective (type interface : String) (f expected : FieldDef) :
    (s.mapFields field).argumentProblems type interface (f.withoutDirective directive)
        (expected.withoutDirective directive)
      = s.argumentProblems type interface f expected := by
  simp only [argumentProblems, FieldDef.withoutDirective, InputValueDef.mustBeGiven_mapFields]

/-- A type implements an interface as well as before: names, types and arguments stay. -/
theorem implementationProblems_withoutDirective (t : SchemaType) (interface : String) :
    (s.mapFields (·.withoutDirective directive)).implementationProblems
        (t.mapFields (·.withoutDirective directive)) interface
      = s.implementationProblems t interface := by
  have hexpected : (((s.mapFields (·.withoutDirective directive)).body? interface).map (·.outputFields)).getD []
      = (((s.body? interface).map (·.outputFields)).getD []).map (·.withoutDirective directive) := by
    rw [body?_mapFields]
    cases s.body? interface with
    | none => rfl
    | some body => exact body.outputFields_mapFields
  have hown : (t.mapFields (·.withoutDirective directive)).body.outputFields
      = t.body.outputFields.map (·.withoutDirective directive) := t.body.outputFields_mapFields
  have hfind : ∀ name : String, (t.body.outputFields.map (·.withoutDirective directive)).find? (·.name == name)
      = (t.body.outputFields.find? (·.name == name)).map (·.withoutDirective directive) := by
    intro name
    rw [List.find?_map]
    rfl
  -- field by field: both sides look for a field of the same name
  simp only [implementationProblems, hexpected, hown, List.flatMap_map, hfind]
  refine List.flatMap_congr fun wanted _ => ?_
  have hname : (wanted.withoutDirective directive).name = wanted.name := rfl
  rw [hname]
  cases t.body.outputFields.find? (·.name == wanted.name) with
  | none => rfl
  | some given =>
    simp only [Option.map_some, isSubtype_mapFields, argumentProblems_withoutDirective]
    rfl

theorem ancestorProblems_mapFields (t : SchemaType) (interface : String) :
    (s.mapFields field).ancestorProblems (t.mapFields field) interface = s.ancestorProblems t interface := by
  have hinterfaces : (t.mapFields field).body.interfaces = t.body.interfaces := by
    cases hbody : t.body <;> simp [SchemaType.mapFields, TypeBody.mapFields, TypeBody.interfaces, hbody]
  have hname : (t.mapFields field).name = t.name := rfl
  simp only [ancestorProblems, interfacesOf_mapFields, hinterfaces, hname]

/-- Interfaces are gone through in order, with those that have been seen. -/
theorem interfaceProblems_withoutDirective (t : SchemaType) (seen interfaces : List String) :
    (s.mapFields (·.withoutDirective directive)).interfaceProblems
        (t.mapFields (·.withoutDirective directive)) seen interfaces
      = s.interfaceProblems t seen interfaces := by
  have hname : (t.mapFields (·.withoutDirective directive)).name = t.name := rfl
  induction interfaces generalizing seen with
  | nil => rw [interfaceProblems, interfaceProblems]
  | cons interface others ih =>
    simp only [interfaceProblems, ancestorProblems_mapFields, implementationProblems_withoutDirective, ih, hname]

/-! ## Input types that contain themselves -/

theorem requiredInput?_mapFields (i : InputValueDef) :
    (s.mapFields field).requiredInput? i = s.requiredInput? i := by
  simp only [requiredInput?, sort?_mapFields]

/-- The search for cycles goes through input fields, which stay. -/
theorem searchFields_mapFields (bound : Nat) (search : CycleSearch) (path : List (String × String))
    (type : String) (inputs : List InputValueDef) :
    (s.mapFields field).searchFields bound search path type inputs
      = s.searchFields bound search path type inputs := by
  -- over the types that the walk may still enter, and for each of them over its fields
  induction bound generalizing search path type inputs with
  | zero =>
    induction inputs generalizing search with
    | nil => simp [searchFields]
    | cons i others ih =>
      rw [searchFields, searchFields]
      simp only [requiredInput?_mapFields, ih]
  | succ bound ihbound =>
    induction inputs generalizing search with
    | nil => simp [searchFields]
    | cons i others ih =>
      rw [searchFields, searchFields]
      simp only [requiredInput?_mapFields, inputFields_mapFields, ihbound, ih]

theorem cycleProblems_mapFields (visited : List String) (type : String) :
    (s.mapFields field).cycleProblems visited type = s.cycleProblems visited type := by
  have hlength : (s.mapFields field).types.length = s.types.length := List.length_map _
  simp only [cycleProblems, inputFields_mapFields, searchFields_mapFields, hlength]

/-! ## Types and schemas -/

/-- The types of a schema are checked in order; each kind is checked by its own names and types. -/
theorem typesProblems_withoutDirective (visited : List String) (types : List SchemaType) :
    (s.mapFields (·.withoutDirective directive)).typesProblems visited
        (types.map (·.mapFields (·.withoutDirective directive)))
      = s.typesProblems visited types := by
  induction types generalizing visited with
  | nil => rfl
  | cons t others ih =>
    obtain ⟨name, directives, body⟩ := t
    -- the type itself, without the types behind it
    have htype : SchemaType.mapFields (·.withoutDirective directive) ⟨name, directives, body⟩
        = ⟨name, directives, body.mapFields (·.withoutDirective directive)⟩ := rfl
    have hinterfaces : ∀ interfaces : List String,
        (s.mapFields (·.withoutDirective directive)).interfaceProblems
            ⟨name, directives, body.mapFields (·.withoutDirective directive)⟩ [] interfaces
          = s.interfaceProblems ⟨name, directives, body⟩ [] interfaces :=
      interfaceProblems_withoutDirective ⟨name, directives, body⟩ []
    rw [List.map_cons, typesProblems, typesProblems, htype]
    cases body with
    | object interfaces fields | interface interfaces fields =>
      simp only [TypeBody.mapFields] at hinterfaces ⊢
      simp only [fieldsProblems_withoutDirective, hinterfaces, ih]
    | input fields => simp only [TypeBody.mapFields, inputProblems_mapFields, cycleProblems_mapFields, ih]
    | _ => simp only [TypeBody.mapFields, ih]

theorem rootProblems_mapFields : (s.mapFields field).rootProblems = s.rootProblems := by
  have hroot : ∀ operation, (s.mapFields field).root? operation = s.root? operation := fun _ => rfl
  simp only [rootProblems, hroot, sort?_mapFields]

/-- **A schema has the problems that it had** when its fields lose a directive. -/
theorem problems_withoutDirective (directive : String) (s : Schema) :
    (s.mapFields (·.withoutDirective directive)).problems = s.problems := by
  have hdirectives : (s.mapFields (·.withoutDirective directive)).directiveProblems = s.directiveProblems := by
    funext d
    simp only [directiveProblems, inputProblems_mapFields]
  rw [problems, problems, rootProblems_mapFields, hdirectives]
  exact congrArg (s.rootProblems ++ s.directives.flatMap s.directiveProblems ++ ·)
    (typesProblems_withoutDirective [] s.types)

end Schema

end ResolverWiring.Graphql
