import ResolverWiring.Proofs.Yaml.Overlay

/-!
# `Proofs.Resources` — from a field to its handler

The generated resources lead from a field to a function: the template of the field names a data source, and
the data source calls a function. All three are named by the qualified name of the binding, which two fields
can share and which a declared function can have as well. Apart from these collisions every field reaches its
own handler, and every declared function stays as it is (`resources_wired_iff`).

What the resources hold is determined in any case: what is generated is laid over what is declared
(`resources_exact`).
-/

namespace ResolverWiring

open Files Yaml

variable {settings : Settings} {bindings : List Binding} {b b' : Binding} {role : String} {role? : Option String}
  {templates : Path} {key : String}

/-! ## Reading resources -/

/-- The value that names lead to in nested mappings. -/
def Yaml.Value.at? (value : Value) : List String → Option Value
  | [] => some value
  | name :: names =>
    match value with
    | .map entries => (Value.lookup? entries name).bind (·.at? names)
    | _ => none

/-- A template of the field of a binding names a data source that calls the function under a key. -/
def Binding.Calls (b : Binding) (templates sources : List Value) (key : String) : Prop :=
  ∃ template ∈ templates, template.at? ["type"] = some (.string b.parentType) ∧
    template.at? ["field"] = some (.string b.fieldName) ∧
    ∃ source ∈ sources, source.at? ["name"] = template.at? ["dataSource"] ∧
      source.at? ["config", "functionName"] = some (.string key)

/-- Resources that keep what is declared and wire bindings: behind the data sources and the templates that are
declared, the generated ones lead from the field of every binding to a function with its handler, and from two
bindings never to one function. Every declared function is there as it is declared. -/
def IsWired (settings : Settings) (bindings : List Binding) (built : Value) : Prop :=
  ∃ functions sources templates, built.at? ["functions"] = some (.map functions) ∧
    built.at? ["custom", "appSync", "dataSources"]
      = some (.list (settings.interface.dataSources.map .map ++ sources)) ∧
    built.at? ["custom", "appSync", "mappingTemplates"]
      = some (.list (settings.interface.mappingTemplates.map .map ++ templates)) ∧
    (∀ entry ∈ settings.functions, entry ∈ functions) ∧
    (∀ b ∈ bindings, ∃ key function, b.Calls templates sources key ∧
      Value.lookup? functions key = some function ∧ function.at? ["handler"] = some (.string b.handler)) ∧
    ∀ b ∈ bindings, ∀ b' ∈ bindings, ∀ key, b.Calls templates sources key →
      b'.Calls templates sources key → b = b'

/-! ## What is generated -/

theorem at?_record_cons (name : String) (value : Value) (entries : List (String × Value)) (names : List String) :
    (record ((name, value) :: entries)).at? (name :: names) = value.at? names := by
  show (Value.lookup? ((.string name, value) :: _) name).bind _ = _
  rw [Value.lookup?_cons, if_pos (Value.sameKey_string.mpr rfl), Option.bind_some]

theorem at?_record_cons_of_ne {name other : String} (hne : name ≠ other) (value : Value)
    (entries : List (String × Value)) (names : List String) :
    (record ((name, value) :: entries)).at? (other :: names) = (record entries).at? (other :: names) := by
  show (Value.lookup? ((.string name, value) :: _) other).bind _ = (Value.lookup? _ other).bind _
  rw [Value.lookup?_cons, if_neg fun h => hne (Value.string.inj (Value.sameKey_string.mp h))]

theorem resources_functions : (resources settings bindings role? templates).at? ["functions"]
    = some (.map (functionEntries settings bindings)) :=
  at?_record_cons _ _ _ _

theorem resources_interface (names : List String) :
    (resources settings bindings role? templates).at? ("custom" :: "appSync" :: names)
      = (Value.map (interfaceEntries settings bindings (roleOf settings role?) templates)).at? names := by
  rw [resources, at?_record_cons_of_ne (by decide), at?_record_cons, at?_record_cons]

theorem resources_dataSources :
    (resources settings bindings role? templates).at? ["custom", "appSync", "dataSources"]
      = some (.list (settings.interface.dataSources.map .map
          ++ bindings.map (·.dataSource (roleOf settings role?)))) := by
  rw [resources_interface]
  show (Value.lookup? (Value.insert (Value.insert (Value.insert _ _ _) _ _) _ _) "dataSources").bind _ = _
  rw [Value.lookup?_insert, if_neg (by decide), Value.lookup?_insert, if_pos rfl]
  rfl

theorem resources_mappingTemplates :
    (resources settings bindings role? templates).at? ["custom", "appSync", "mappingTemplates"]
      = some (.list (settings.interface.mappingTemplates.map .map
          ++ bindings.map (·.mappingTemplate templates))) := by
  rw [resources_interface]
  show (Value.lookup? (Value.insert (Value.insert (Value.insert _ _ _) _ _) _ _) "mappingTemplates").bind _ = _
  rw [Value.lookup?_insert, if_pos rfl]
  rfl

theorem mappingTemplate_parts (b : Binding) (templates : Path) :
    (b.mappingTemplate templates).at? ["type"] = some (.string b.parentType) ∧
      (b.mappingTemplate templates).at? ["field"] = some (.string b.fieldName) ∧
      (b.mappingTemplate templates).at? ["dataSource"] = some (.string b.qualifiedName) := by
  unfold Binding.mappingTemplate
  refine ⟨?_, ?_, at?_record_cons _ _ _ _⟩
  · rw [at?_record_cons_of_ne (by decide), at?_record_cons]
    rfl
  · rw [at?_record_cons_of_ne (by decide), at?_record_cons_of_ne (by decide), at?_record_cons]
    rfl

theorem dataSource_parts (b : Binding) (role : String) :
    (b.dataSource role).at? ["name"] = some (.string b.qualifiedName) ∧
      (b.dataSource role).at? ["config", "functionName"] = some (.string b.qualifiedName) := by
  unfold Binding.dataSource
  refine ⟨at?_record_cons _ _ _ _, ?_⟩
  rw [at?_record_cons_of_ne (by decide), at?_record_cons_of_ne (by decide), at?_record_cons, at?_record_cons]
  rfl

theorem function_handler (b : Binding) : b.function.2.at? ["handler"] = some (.string b.handler) := by
  show (record [("name", _), ("handler", _)]).at? _ = _
  rw [at?_record_cons_of_ne (by decide), at?_record_cons]
  rfl

/-- The generated template of a field names its data source, and this calls the function of its name. -/
theorem calls_iff (hfields : (bindings.map fun b => (b.parentType, b.fieldName)).Nodup) (hb : b ∈ bindings) :
    b.Calls (bindings.map (·.mappingTemplate templates)) (bindings.map (·.dataSource role)) key
      ↔ key = b.qualifiedName := by
  constructor
  · rintro ⟨template, htemplate, htype, hfield, source, hsource, hname, hkey⟩
    obtain ⟨other, hother, rfl⟩ := List.mem_map.mp htemplate
    obtain ⟨third, -, rfl⟩ := List.mem_map.mp hsource
    -- no other binding has a template of this field
    have hsame : other = b := by
      refine List.inj_on_of_nodup_map hfields hother hb (Prod.ext ?_ ?_)
      · exact Value.string.inj (Option.some.inj ((mappingTemplate_parts other templates).1.symm.trans htype))
      · exact Value.string.inj (Option.some.inj ((mappingTemplate_parts other templates).2.1.symm.trans hfield))
    subst hsame
    rw [(dataSource_parts third role).1, (mappingTemplate_parts other templates).2.2] at hname
    rw [(dataSource_parts third role).2, hname] at hkey
    exact (Value.string.inj (Option.some.inj hkey)).symm
  · rintro rfl
    obtain ⟨htype, hfield, hname⟩ := mappingTemplate_parts b templates
    obtain ⟨hsource, hkey⟩ := dataSource_parts b role
    exact ⟨_, List.mem_map_of_mem hb, htype, hfield, _, List.mem_map_of_mem hb, hsource.trans hname.symm, hkey⟩

/-! ## Functions -/

/-- The names and the declarations of the generated functions. -/
def generated (bindings : List Binding) : List (String × Value) :=
  bindings.map fun b => (b.qualifiedName, b.function.2)

theorem map_function (bindings : List Binding) :
    bindings.map (·.function) = (generated bindings).map fun entry => (.string entry.1, entry.2) := by
  rw [generated, List.map_map]
  rfl

theorem generated_fst (bindings : List Binding) : (generated bindings).map (·.1) = bindings.map (·.qualifiedName) := by
  rw [generated, List.map_map]
  rfl

theorem functionEntries_of_nodup (hnames : (bindings.map (·.qualifiedName)).Nodup) :
    functionEntries settings bindings
      = overlay settings.functions ((generated bindings).map fun entry => (.string entry.1, entry.2)) := by
  rw [functionEntries, map_function, Value.ofEntries_of_distinct]
  refine List.pairwise_map.mpr (List.Pairwise.imp (fun hne => ?_) (List.pairwise_map.mp (generated_fst bindings ▸ hnames)))
  exact eq_false_of_ne_true fun h => hne (Value.string.inj (Value.sameKey_string.mp h))

/-- The function of a binding is found under its name. -/
theorem lookup?_functionEntries (hnames : (bindings.map (·.qualifiedName)).Nodup) (hb : b ∈ bindings) :
    Value.lookup? (functionEntries settings bindings) b.qualifiedName = some b.function.2 := by
  rw [functionEntries_of_nodup hnames]
  exact Value.lookup?_overlay_of_mem _ (generated_fst bindings ▸ hnames) (List.mem_map_of_mem hb)

/-! ## Wiring -/

/-- If two bindings never lead to one function, their qualified names differ. -/
theorem IsWired.nodup (hfields : (bindings.map fun b => (b.parentType, b.fieldName)).Nodup)
    (h : IsWired settings bindings (resources settings bindings role? templates)) :
    (bindings.map (·.qualifiedName)).Nodup := by
  obtain ⟨functions, sources, made, -, hsources, hmade, -, -, hapart⟩ := h
  rw [resources_dataSources] at hsources
  rw [resources_mappingTemplates] at hmade
  have hsources := List.append_cancel_left (Value.list.inj (Option.some.inj hsources))
  have hmade := List.append_cancel_left (Value.list.inj (Option.some.inj hmade))
  subst hsources hmade
  refine List.Nodup.map_on (fun b hb b' hb' hname => ?_) (List.Nodup.of_map _ hfields)
  exact hapart b hb b' hb' b.qualifiedName ((calls_iff hfields hb).mpr rfl) ((calls_iff hfields hb').mpr hname)

/-- **Generated wiring reaches the right handler.** For settings whose functions have distinct keys and for
bindings of distinct fields, every declared function stays as it is, every field reaches its own handler, and no
two fields share a function, exactly if no two of the qualified names are equal and every declared function with
one of these names is the one that is generated. -/
theorem resources_wired_iff (settings : Settings) (bindings : List Binding) (role? : Option String)
    (templates : Path) (hfunctions : Value.DistinctKeys settings.functions)
    (hfields : (bindings.map fun b => (b.parentType, b.fieldName)).Nodup) :
    IsWired settings bindings (resources settings bindings role? templates) ↔
      (bindings.map (·.qualifiedName)).Nodup ∧
        ∀ b ∈ bindings, ∀ declaration,
          (.string b.qualifiedName, declaration) ∈ settings.functions → declaration = b.function.2 := by
  constructor
  · intro h
    have hnames := h.nodup hfields
    refine ⟨hnames, fun b hb declaration hdeclared => ?_⟩
    obtain ⟨functions, _, _, hentries, -, -, hkept, -, -⟩ := h
    have hentries := Value.map.inj (Option.some.inj (resources_functions.symm.trans hentries))
    subst hentries
    -- under one name there is one function
    have hdistinct : Value.DistinctKeys (functionEntries settings bindings) := hfunctions.overlay _
    have hfound := Value.lookup?_of_mem hdistinct (hkept _ hdeclared)
    exact Option.some.inj (hfound.symm.trans (lookup?_functionEntries hnames hb))
  · rintro ⟨hnames, hdeclared⟩
    refine ⟨_, _, _, resources_functions, resources_dataSources, resources_mappingTemplates,
      fun entry hentry => ?_, fun b hb => ?_, fun b hb b' hb' key hkey hkey' => ?_⟩
    · rw [functionEntries_of_nodup hnames]
      refine Value.mem_overlay hentry fun other hother hsame => ?_
      obtain ⟨⟨name, value⟩, hmem, rfl⟩ := List.mem_map.mp hother
      obtain ⟨b, hb, heq⟩ := List.mem_map.mp hmem
      obtain ⟨rfl, rfl⟩ := Prod.ext_iff.mp heq
      refine hdeclared b hb entry.2 ?_
      rw [← Value.sameKey_string.mp hsame]
      exact hentry
    · exact ⟨b.qualifiedName, b.function.2, (calls_iff hfields hb).mpr rfl, lookup?_functionEntries hnames hb,
        function_handler b⟩
    · have hname := ((calls_iff hfields hb).mp hkey).symm.trans ((calls_iff hfields hb').mp hkey')
      exact List.inj_on_of_nodup_map hnames hb hb' hname

/-- Two fields and a declared function. -/
theorem resources_wired_iff_todo : ∃ settings bindings role? templates,
    Value.DistinctKeys settings.functions ∧ (bindings.map fun b => (b.parentType, b.fieldName)).Nodup ∧
    (IsWired settings bindings (resources settings bindings role? templates) ↔
      (bindings.map (·.qualifiedName)).Nodup ∧
        ∀ b ∈ bindings, ∀ declaration,
          (.string b.qualifiedName, declaration) ∈ settings.functions → declaration = b.function.2) := by
  let settings : Settings := ⟨⟨.single, []⟩, [(.string "ping", record [("handler", .string "ping.main")])],
    ⟨⟨.file, ⟨.single, ["s.graphql"]⟩⟩, defaultServiceRole, [], [], []⟩⟩
  have hfunctions : Value.DistinctKeys settings.functions := List.pairwise_singleton _ _
  have hfields : ([⟨"Query", "todo", "todo.get"⟩, ⟨"Query", "todos", "todo.list"⟩].map
      fun b : Binding => (b.parentType, b.fieldName)).Nodup := by decide
  exact ⟨settings, _, none, ⟨.single, ["templates"]⟩, hfunctions, hfields,
    resources_wired_iff settings _ none _ hfunctions hfields⟩

/-- The fields `c` of `A_b` and `b_c` of `A` have one qualified name, so both lead to the handler of the second. -/
theorem resources_not_wired : ∃ settings bindings role? templates,
    Value.DistinctKeys settings.functions ∧ (bindings.map fun b => (b.parentType, b.fieldName)).Nodup ∧
    ¬ IsWired settings bindings (resources settings bindings role? templates) := by
  let settings : Settings := ⟨⟨.single, []⟩, [],
    ⟨⟨.file, ⟨.single, ["s.graphql"]⟩⟩, defaultServiceRole, [], [], []⟩⟩
  have hfields : ([⟨"A_b", "c", "first"⟩, ⟨"A", "b_c", "second"⟩].map
      fun b : Binding => (b.parentType, b.fieldName)).Nodup := by decide
  exact ⟨settings, _, none, ⟨.single, ["templates"]⟩, List.Pairwise.nil, hfields,
    fun h => absurd (h.nodup hfields) (by decide)⟩

/-! ## What the resources hold -/

/-- The function under a qualified name: its name, and the handler of the last binding that has the name. -/
def lastFunction? (bindings : List Binding) (name : String) : Option Value :=
  (bindings.reverse.find? (·.qualifiedName == name)).map fun b =>
    .map [(.string "name", .string name), (.string "handler", .string b.handler)]

theorem lookup_generated (bindings : List Binding) (name : String) :
    (generated bindings).reverse.lookup name = lastFunction? bindings name := by
  rw [lastFunction?, generated, ← List.map_reverse]
  induction bindings.reverse with
  | nil => rfl
  | cons b others ih =>
    rw [List.map_cons, List.lookup_cons, List.find?_cons]
    by_cases hname : b.qualifiedName = name
    · subst hname
      rw [beq_self_eq_true]
      rfl
    · rw [beq_eq_false_iff_ne.mpr hname, beq_eq_false_iff_ne.mpr (Ne.symm hname)]
      exact ih

/-- The functions of the bindings are laid over those of the settings. -/
theorem functionEntries_isOverlaid (hfunctions : Value.DistinctKeys settings.functions) :
    Value.IsOverlaid settings.functions (bindings.map (·.qualifiedName)) (lastFunction? bindings)
      (functionEntries settings bindings) := by
  have hlaid := Value.isOverlaid_ofEntries hfunctions (generated bindings)
  rw [generated_fst] at hlaid
  simp only [lookup_generated] at hlaid
  rw [functionEntries, map_function]
  exact hlaid

/-- What is laid over the section of the interface. -/
def interfaceParts (settings : Settings) (bindings : List Binding) (role : String) (templates : Path) :
    List (String × Value) :=
  [("schema", .string cleanSchemaName),
    ("dataSources", .list (settings.interface.dataSources.map .map ++ bindings.map (·.dataSource role))),
    ("mappingTemplates",
      .list (settings.interface.mappingTemplates.map .map ++ bindings.map (·.mappingTemplate templates)))]

theorem interfaceEntries_isOverlaid (hraw : Value.DistinctKeys settings.interface.raw) :
    Value.IsOverlaid settings.interface.raw ["schema", "dataSources", "mappingTemplates"]
      (List.lookup · (interfaceParts settings bindings role templates))
      (interfaceEntries settings bindings role templates) := by
  have hlaid := Value.isOverlaid_overlay hraw (interfaceParts settings bindings role templates)
  refine ⟨hlaid.distinct, hlaid.keys, fun name hname => ?_, hlaid.kept⟩
  obtain ⟨value, hvalue, hmem⟩ := hlaid.laid name hname
  refine ⟨value, ?_, hmem⟩
  rw [← hvalue]
  -- no two of the parts have one name
  simp only [List.mem_cons, List.not_mem_nil, or_false] at hname
  rcases hname with rfl | rfl | rfl <;> rfl

/-- The role is the one that is asked for, unless it is missing or empty. -/
theorem roleOf_eq (settings : Settings) (role? : Option String) :
    (∀ role, role? = some role → role ≠ "" → roleOf settings role? = role) ∧
      ((∀ role, role? = some role → role = "") → roleOf settings role? = settings.interface.serviceRole) := by
  constructor
  · rintro role rfl hrole
    have hempty : ¬ role.isEmpty = true := fun h => hrole (String.isEmpty_iff.mp h)
    rw [roleOf, if_neg hempty]
  · intro hempty
    cases role? with
    | none => rfl
    | some role =>
      rw [hempty role rfl]
      rfl

/-- A generated template names a generated data source, and this calls a function that is there. -/
theorem mappingTemplate_leads (hfunctions : Value.DistinctKeys settings.functions) {template : Value}
    (h : template ∈ bindings.map (·.mappingTemplate templates)) :
    ∃ name, template.at? ["dataSource"] = some (.string name) ∧
      ∃ source ∈ bindings.map (·.dataSource role), source.at? ["name"] = some (.string name) ∧
        ∃ key, source.at? ["config", "functionName"] = some (.string key) ∧
          .string key ∈ (functionEntries settings bindings).map (·.1) := by
  obtain ⟨b, hb, rfl⟩ := List.mem_map.mp h
  obtain ⟨hname, hkey⟩ := dataSource_parts b role
  refine ⟨b.qualifiedName, (mappingTemplate_parts b templates).2.2, b.dataSource role, List.mem_map_of_mem hb,
    hname, b.qualifiedName, hkey, ?_⟩
  obtain ⟨value, -, hmem⟩ := (functionEntries_isOverlaid hfunctions).laid _ (List.mem_map_of_mem hb)
  exact List.mem_map_of_mem hmem

/-- **What resources hold.** Take settings whose functions have distinct keys, as have the entries of their section.
The functions of the resources are the declared ones with those of the bindings laid over them: under each qualified
name, the name and the handler of the last binding that has it. The section is the declared one with the clean schema,
the data sources and the templates laid over it. Data sources and templates are the declared ones with one for every
binding behind them; the data sources have the role that is asked for, or that of the settings if none is or an empty
one. So every generated template names a generated data source, and this calls a function that is there. -/
theorem resources_exact (settings : Settings) (bindings : List Binding) (role? : Option String) (templates : Path)
    (hfunctions : Value.DistinctKeys settings.functions) (hraw : Value.DistinctKeys settings.interface.raw) :
    ∃ functions interface role sources mappings,
      resources settings bindings role? templates = .map [(.string "functions", .map functions),
        (.string "custom", .map [(.string "appSync", .map interface)])] ∧
      Value.IsOverlaid settings.functions (bindings.map fun b => b.parentType ++ "_" ++ b.fieldName)
        (fun name => (bindings.reverse.find? fun b => b.parentType ++ "_" ++ b.fieldName == name).map fun b =>
          .map [(.string "name", .string name), (.string "handler", .string b.handler)]) functions ∧
      Value.IsOverlaid settings.interface.raw ["schema", "dataSources", "mappingTemplates"]
        (List.lookup · [("schema", .string ".serverless_schema.graphql"),
          ("dataSources", .list (settings.interface.dataSources.map .map ++ sources)),
          ("mappingTemplates", .list (settings.interface.mappingTemplates.map .map ++ mappings))]) interface ∧
      (sources = bindings.map fun b => .map [
        (.string "name", .string (b.parentType ++ "_" ++ b.fieldName)),
        (.string "type", .string "AWS_LAMBDA"),
        (.string "config", .map [
          (.string "functionName", .string (b.parentType ++ "_" ++ b.fieldName)),
          (.string "serviceRoleArn", .map [(.string "Fn::GetAtt", .list [.string role, .string "Arn"])])])]) ∧
      (mappings = bindings.map fun b => .map [
        (.string "dataSource", .string (b.parentType ++ "_" ++ b.fieldName)),
        (.string "type", .string b.parentType),
        (.string "field", .string b.fieldName),
        (.string "request", .string (templates.join (.ofString "request.vtl")).toString),
        (.string "response", .string (templates.join (.ofString "response.vtl")).toString)]) ∧
      (∀ given, role? = some given → given ≠ "" → role = given) ∧
      ((∀ given, role? = some given → given = "") → role = settings.interface.serviceRole) ∧
      ∀ mapping ∈ mappings, ∃ name, mapping.at? ["dataSource"] = some (.string name) ∧
        ∃ source ∈ sources, source.at? ["name"] = some (.string name) ∧
          ∃ key, source.at? ["config", "functionName"] = some (.string key) ∧
            .string key ∈ functions.map (·.1) := by
  obtain ⟨hgiven, hmissing⟩ := roleOf_eq settings role?
  have hsection := @interfaceEntries_isOverlaid settings bindings (roleOf settings role?) templates hraw
  refine ⟨_, _, roleOf settings role?, _, _, rfl, functionEntries_isOverlaid hfunctions, hsection, rfl, rfl, hgiven,
    hmissing, ?_⟩
  intro mapping hmapping
  exact mappingTemplate_leads hfunctions hmapping

/-- Two bindings with one qualified name, which is that of a declared function, and a section that has templates. The
function has the handler of the second binding, and there is one data source more than functions. -/
theorem resources_exact_collision : ∃ settings bindings role? templates,
    Value.DistinctKeys settings.functions ∧ Value.DistinctKeys settings.interface.raw ∧
    settings.functions = [(.int 1, .null), (.string "A_b_c", .map [(.string "handler", .string "old")])] ∧
    bindings = [⟨"A_b", "c", "first"⟩, ⟨"A", "b_c", "second"⟩] ∧ role? = some "" ∧
    ∃ functions interface sources,
      resources settings bindings role? templates = .map [(.string "functions", .map functions),
        (.string "custom", .map [(.string "appSync", .map interface)])] ∧
      functions.map (·.1) = [.int 1, .string "A_b_c"] ∧ (.int 1, .null) ∈ functions ∧
      (.string "A_b_c", .map [(.string "name", .string "A_b_c"), (.string "handler", .string "second")]) ∈ functions ∧
      interface.map (·.1) = [.string "mappingTemplates", .string "schema", .string "dataSources"] ∧
      (.string "dataSources", .list sources) ∈ interface ∧ sources.length = 2 ∧
      ∀ source ∈ sources, source.at? ["config", "serviceRoleArn", "Fn::GetAtt"]
        = some (.list [.string "AppSyncServiceRole", .string "Arn"]) := by
  let raw : Entries := [(.string "mappingTemplates", .list [.map []]), (.string "schema", .string "s.graphql")]
  let settings : Settings := ⟨⟨.single, []⟩, [(.int 1, .null), (.string "A_b_c", record [("handler", .string "old")])],
    ⟨⟨.file, ⟨.single, ["s.graphql"]⟩⟩, defaultServiceRole, [], [[]], raw⟩⟩
  have hfunctions : Value.DistinctKeys settings.functions := List.pairwise_pair.mpr rfl
  have hraw : Value.DistinctKeys settings.interface.raw := List.pairwise_pair.mpr (by decide)
  obtain ⟨functions, interface, role, sources, mappings, hbuilt, hlaid, hsection, rfl, rfl, -, hmissing, -⟩ :=
    resources_exact settings [⟨"A_b", "c", "first"⟩, ⟨"A", "b_c", "second"⟩] (some "") ⟨.single, ["templates"]⟩
      hfunctions hraw
  obtain rfl : role = "AppSyncServiceRole" := hmissing fun given h => (Option.some.inj h).symm
  obtain ⟨function, hfunction, hmem⟩ := hlaid.laid "A_b_c" (by decide)
  obtain ⟨declared, hdeclared, hsources⟩ := hsection.laid "dataSources" (by decide)
  cases hfunction
  cases hdeclared
  refine ⟨settings, _, _, _, hfunctions, hraw, rfl, rfl, rfl, functions, interface, _, hbuilt, hlaid.keys,
    hlaid.kept _ List.mem_cons_self (by simp), hmem, hsection.keys, hsources, rfl, ?_⟩
  simp [settings, Value.at?, Value.lookup?, Value.sameKey]

end ResolverWiring
