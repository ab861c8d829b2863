import ResolverWiring.Proofs.Service.SettingsFile
import ResolverWiring.Proofs.Text.Blank

/-!
# `Proofs.Service.Gate` — the checks of a configuration

A configuration that can be read has to pass some checks, which are made in a fixed order (`gate`). If all of them
hold, it is loaded, and the service says what the configuration says (`Describes`). If not, loading fails with the
error of the first check that does not hold, and with no other (`loadService_gated`).

Reading goes step by step, and each step makes some of the checks (`Gated`). Steps one after the other make their
checks one after the other (`Gated.bind`), so the checks of the whole are those of the steps in a row.
-/

namespace ResolverWiring

open Files Text Yaml

/-! ## Checks in a row -/

/-- A check: what has to hold, and the error if it does not. -/
structure Check where
  holds : Prop
  error : SettingsError

/-- Whether an error is that of the first check that does not hold. -/
def FirstFails (checks : List Check) (error : SettingsError) : Prop :=
  ∃ before check behind, checks = before ++ check :: behind ∧ (∀ earlier ∈ before, earlier.holds) ∧
    ¬ check.holds ∧ check.error = error

section Checks

variable {α β : Type} {check : Check} {checks others : List Check} {error : SettingsError}
  {result : Except SettingsError α} {step : α → Except SettingsError β} {good : α → Prop} {better : β → Prop}

theorem not_firstFails_nil : ¬ FirstFails [] error := by
  rintro ⟨before, check, behind, hchecks, -⟩
  exact List.append_ne_nil_of_right_ne_nil before (List.cons_ne_nil check behind) hchecks.symm

theorem firstFails_cons : FirstFails (check :: checks) error ↔
    ¬ check.holds ∧ check.error = error ∨ check.holds ∧ FirstFails checks error := by
  constructor
  · rintro ⟨before, failing, behind, hchecks, hbefore, hfails, herror⟩
    cases before with
    | nil =>
      obtain ⟨rfl, -⟩ := List.cons.inj hchecks
      exact .inl ⟨hfails, herror⟩
    | cons first before =>
      obtain ⟨rfl, hrest⟩ := List.cons.inj hchecks
      obtain ⟨hfirst, hbefore⟩ := List.forall_mem_cons.mp hbefore
      exact .inr ⟨hfirst, before, failing, behind, hrest, hbefore, hfails, herror⟩
  · rintro (⟨hfails, herror⟩ | ⟨hholds, before, failing, behind, rfl, hbefore, hfails, herror⟩)
    · exact ⟨[], check, checks, rfl, nofun, hfails, herror⟩
    · exact ⟨check :: before, failing, behind, rfl, List.forall_mem_cons.mpr ⟨hholds, hbefore⟩, hfails, herror⟩

theorem firstFails_append : FirstFails (checks ++ others) error ↔
    FirstFails checks error ∨ (∀ check ∈ checks, check.holds) ∧ FirstFails others error := by
  induction checks with
  | nil => simp [not_firstFails_nil]
  | cons check checks ih =>
    rw [List.cons_append, firstFails_cons, firstFails_cons, ih, List.forall_mem_cons]
    tauto

/-- Either all checks hold, or there is a first one that does not. -/
theorem forall_holds_or_firstFails (checks : List Check) :
    (∀ check ∈ checks, check.holds) ∨ ∃ error, FirstFails checks error := by
  induction checks with
  | nil => exact .inl nofun
  | cons check checks ih =>
    by_cases hholds : check.holds
    · rcases ih with hall | ⟨error, hfails⟩
      · exact .inl (List.forall_mem_cons.mpr ⟨hholds, hall⟩)
      · exact .inr ⟨error, firstFails_cons.mpr (.inr ⟨hholds, hfails⟩)⟩
    · exact .inr ⟨check.error, firstFails_cons.mpr (.inl ⟨hholds, rfl⟩)⟩

/-- Whether a result comes of making checks: it is the error of the first one that does not hold, or else it is good
in some way. -/
structure Gated (checks : List Check) (result : Except SettingsError α) (good : α → Prop) : Prop where
  fails : ∀ error, FirstFails checks error → result = .error error
  passes : (∀ check ∈ checks, check.holds) → ∃ a, result = .ok a ∧ good a

theorem Gated.eq_error_iff (h : Gated checks result good) : result = .error error ↔ FirstFails checks error := by
  constructor
  · intro hresult
    rcases forall_holds_or_firstFails checks with hall | ⟨first, hfirst⟩
    · obtain ⟨a, ha, -⟩ := h.passes hall
      rw [hresult] at ha
      cases ha
    · have hsame := hresult.symm.trans (h.fails first hfirst)
      rwa [Except.error.inj hsame]
  · exact h.fails error

theorem Gated.of_ok {a : α} (h : good a) : Gated [] (.ok a) good where
  fails := fun _ hfirst => absurd hfirst not_firstFails_nil
  passes := fun _ => ⟨a, rfl, h⟩

theorem Gated.cons_holds {holds : Prop} {reason : SettingsError} (hholds : holds) (h : Gated checks result good) :
    Gated (⟨holds, reason⟩ :: checks) result good where
  fails := by
    intro error hfirst
    rcases firstFails_cons.mp hfirst with ⟨hnot, -⟩ | ⟨-, hfirst⟩
    · exact absurd hholds hnot
    · exact h.fails error hfirst
  passes := fun hall => h.passes (List.forall_mem_cons.mp hall).2

theorem Gated.cons_fails {holds : Prop} {reason : SettingsError} (hnot : ¬ holds) (checks : List Check)
    (good : α → Prop) : Gated (⟨holds, reason⟩ :: checks) (.error reason) good where
  fails := by
    intro error hfirst
    rcases firstFails_cons.mp hfirst with ⟨-, rfl⟩ | ⟨hholds, -⟩
    · rfl
    · exact absurd hholds hnot
  passes := fun hall => absurd (List.forall_mem_cons.mp hall).1 hnot

/-- One step after the other makes the checks of one after those of the other. -/
theorem Gated.bind (h : Gated checks result good)
    (hstep : (∀ check ∈ checks, check.holds) → ∀ a, good a → Gated others (step a) better) :
    Gated (checks ++ others) (result >>= step) better where
  fails := by
    intro error hfirst
    rcases firstFails_append.mp hfirst with hfirst | ⟨hall, hfirst⟩
    · rw [h.fails error hfirst]
      rfl
    · obtain ⟨a, rfl, ha⟩ := h.passes hall
      exact (hstep hall a ha).fails error hfirst
  passes := by
    intro hall
    have hchecks : ∀ check ∈ checks, check.holds := fun check hcheck => hall check (List.mem_append_left _ hcheck)
    obtain ⟨a, rfl, ha⟩ := h.passes hchecks
    exact (hstep hchecks a ha).passes fun check hcheck => hall check (List.mem_append_right _ hcheck)

/-- A last step that only puts a result together. -/
theorem Gated.map {f : α → β} (h : Gated checks result good) (hf : ∀ a, good a → better (f a)) :
    Gated checks (result >>= fun a => .ok (f a)) better := by
  have hlast : (∀ check ∈ checks, check.holds) → ∀ a, good a → Gated [] (.ok (f a)) better :=
    fun _ a ha => .of_ok (hf a ha)
  rw [← List.append_nil checks]
  exact h.bind hlast

end Checks

/-! ## Settings -/

/-- Whether a setting is a text that is not blank, with this text in it once the white space around it is cut off. -/
def HasText (value? : Option Value) (trimmed : String) : Prop :=
  ∃ text, value? = some (.string text) ∧ IsTrimmed text.toList trimmed.toList ∧ trimmed ≠ ""

/-- Whether a setting is absent, null, or a blank text. -/
def IsUnset (value? : Option Value) : Prop :=
  value? = none ∨ value? = some .null ∨ ∃ text, value? = some (.string text) ∧ ∀ c ∈ text.toList, IsBlank c

/-- Whether a text is what a setting says; a setting that is unset says nothing. -/
def Says (value? : Option Value) : Option String → Prop
  | some text => HasText value? text
  | none => IsUnset value?

/-- The items of a setting that is a list. -/
def listed : Option Value → List Value
  | some (.list items) => items.map Value.opened
  | _ => []

/-- Whether a setting is absent, null, or a text. -/
def IsTextOrNull (value? : Option Value) : Prop :=
  value? = none ∨ value? = some .null ∨ ∃ text, value? = some (.string text)

/-- Whether a setting is absent, null, or a list. -/
def IsListOrNull (value? : Option Value) : Prop :=
  value? = none ∨ value? = some .null ∨ ∃ items, value? = some (.list items)

/-- Whether a value is a mapping. -/
def Yaml.Value.IsMapping (value : Value) : Prop := ∃ entries, value = .map entries

/-- A setting of the section has to be absent, null, or a text. -/
def textCheck (name : String) (value? : Option Value) : Check := ⟨IsTextOrNull value?, .notString name⟩

/-- A setting of the section has to be absent, null, or a list of mappings. -/
def mappingsChecks (name : String) (value? : Option Value) : List Check :=
  [⟨IsListOrNull value?, .notList name⟩,
    ⟨∀ item ∈ listed value?, item.IsMapping, .itemNotMapping name⟩]

/-- The checks of where the schema comes from: only where no directory is set, a file is looked for. -/
def sourceChecks (setting : String → Option Value) : List Check :=
  [textCheck "custom.appSync.schemaDir" (setting "schemaDir"),
    ⟨IsUnset (setting "schemaDir") → IsTextOrNull (setting "schema"), .notString "custom.appSync.schema"⟩,
    ⟨IsUnset (setting "schemaDir") → ¬ IsUnset (setting "schema"), .noSource⟩]

/-- The checks of the section. -/
def sectionChecks (setting : String → Option Value) : List Check :=
  sourceChecks setting ++ ([textCheck "custom.appSync.serviceRole" (setting "serviceRole")] ++
    (mappingsChecks "custom.appSync.dataSources" (setting "dataSources") ++
      mappingsChecks "custom.appSync.mappingTemplates" (setting "mappingTemplates")))

section Texts

variable {value? : Option Value} {trimmed trimmed' : String}

theorem hasText_string {text : String} :
    HasText (some (.string text)) trimmed ↔ trimmed.toList = stripBlanks text.toList ∧ trimmed ≠ "" := by
  rw [← isTrimmed_iff]
  constructor
  · rintro ⟨_, ⟨⟩, h⟩
    exact h
  · exact fun h => ⟨text, rfl, h⟩

theorem HasText.unique (h : HasText value? trimmed) (h' : HasText value? trimmed') : trimmed = trimmed' := by
  obtain ⟨text, rfl, htrimmed, -⟩ := h
  have hsame := (isTrimmed_iff.mp htrimmed).trans (hasText_string.mp h').1.symm
  exact String.toList_injective hsame

theorem HasText.not_isUnset (h : HasText value? trimmed) : ¬ IsUnset value? := by
  obtain ⟨text, rfl, ⟨⟨before, behind, htext, -⟩, hfirst, -⟩, hne⟩ := h
  rintro (h | h | ⟨_, ⟨⟩, hblank⟩)
  · cases h
  · cases h
  · cases hchars : trimmed.toList with
    | nil => exact hne (String.toList_eq_nil_iff.mp hchars)
    | cons c cs =>
      rw [hchars] at htext hfirst
      exact hfirst c rfl (hblank c (by simp [htext]))

end Texts

namespace Settings

theorem readText_gated (name : String) (value? : Option Value) :
    Gated [textCheck name value?] (readText name value?) (Says value?) := by
  unfold readText
  split
  · exact .cons_holds (.inl rfl) (.of_ok (.inl rfl))
  · exact .cons_holds (.inr (.inl rfl)) (.of_ok (.inr (.inl rfl)))
  · rename_i text
    have hholds : (textCheck name (some (.string text))).holds := .inr (.inr ⟨text, rfl⟩)
    split
    · rename_i hblank
      exact .cons_holds hholds (.of_ok (.inr (.inr ⟨text, rfl, forall_blank_of_stripBlanks hblank⟩)))
    · rename_i hblank
      refine .cons_holds hholds (.of_ok (hasText_string.mpr ⟨String.toList_ofList, fun hnone => hblank ?_⟩))
      rw [← String.toList_ofList (l := stripBlanks text.toList), hnone]
      rfl
  · rename_i value hnone hnull htext
    refine .cons_fails ?_ _ _
    rintro (h | h | ⟨text, h⟩)
    · cases h
    · exact hnull (Option.some.inj h)
    · exact htext text (Option.some.inj h)

/-- The mapping that an item of a list has to be. -/
def readItem (name : String) (item : Value) : Except SettingsError Entries :=
  match item.opened with
  | .map entries => .ok entries
  | _ => .error (.itemNotMapping name)

theorem readItem_eq_ok (name : String) {item : Value} {entries : Entries} (h : item.opened = .map entries) :
    readItem name item = .ok entries := by
  rw [readItem, h]

theorem readItem_eq_error {name : String} {item : Value} (h : ¬ item.opened.IsMapping) :
    readItem name item = .error (.itemNotMapping name) := by
  unfold readItem
  split
  · rename_i entries hentries
    exact absurd ⟨entries, hentries⟩ h
  · rfl

theorem readItems_eq_ok (name : String) {items : List Value} (h : ∀ item ∈ items.map Value.opened, item.IsMapping) :
    ∃ mappings, items.mapM (readItem name) = .ok mappings ∧ mappings.map .map = items.map Value.opened := by
  induction items with
  | nil => exact ⟨[], rfl, rfl⟩
  | cons item items ih =>
    obtain ⟨⟨entries, hentries⟩, hitems⟩ := List.forall_mem_cons.mp h
    obtain ⟨mappings, hmappings, hsame⟩ := ih hitems
    refine ⟨entries :: mappings, ?_, ?_⟩
    · rw [List.mapM_cons, readItem_eq_ok name hentries, hmappings]
      rfl
    · rw [List.map_cons, List.map_cons, hentries, hsame]

theorem readItems_eq_error {name : String} {items : List Value}
    (h : ¬ ∀ item ∈ items.map Value.opened, item.IsMapping) :
    items.mapM (readItem name) = .error (.itemNotMapping name) := by
  induction items with
  | nil => exact absurd nofun h
  | cons item items ih =>
    rw [List.mapM_cons]
    by_cases hitem : item.opened.IsMapping
    · have hitems := ih fun hall => h (List.forall_mem_cons.mpr ⟨hitem, hall⟩)
      obtain ⟨entries, hentries⟩ := hitem
      rw [readItem_eq_ok name hentries, hitems]
      rfl
    · rw [readItem_eq_error hitem]
      rfl

theorem readMappings_gated (name : String) (value? : Option Value) :
    Gated (mappingsChecks name value?) (readMappings name value?)
      (fun mappings => mappings.map .map = listed value?) := by
  unfold readMappings
  split
  · exact .cons_holds (.inl rfl) (.cons_holds nofun (.of_ok rfl))
  · exact .cons_holds (.inr (.inl rfl)) (.cons_holds nofun (.of_ok rfl))
  · rename_i items
    refine .cons_holds (.inr (.inr ⟨items, rfl⟩)) ?_
    show Gated [⟨∀ item ∈ items.map Value.opened, item.IsMapping, _⟩] (items.mapM (readItem name)) _
    by_cases hall : ∀ item ∈ items.map Value.opened, item.IsMapping
    · obtain ⟨mappings, hmappings, heq⟩ := readItems_eq_ok name hall
      rw [hmappings]
      exact .cons_holds hall (.of_ok heq)
    · rw [readItems_eq_error hall]
      exact .cons_fails hall _ _
  · rename_i value hnone hnull hlist
    refine .cons_fails ?_ _ _
    rintro (h | h | ⟨items, h⟩)
    · cases h
    · exact hnull (Option.some.inj h)
    · exact hlist items (Option.some.inj h)

/-! ## The section -/

/-- The place that the text of a path means: one without a root is seen from the directory of the service. -/
def placeOf (servicePath : Path) (text : String) : Path :=
  if (Path.ofString text).isAbsolute then .ofString text else servicePath.resolve (.ofString text)

/-- Whether the texts that can name the source of the schema are paths that files can have. -/
def NoNull (setting : String → Option Value) : Prop :=
  ∀ name ∈ ["schemaDir", "schema"], ∀ text, HasText (setting name) text → (Path.ofString text).hasNull = false

/-- Whether a source is the one that is set: a directory, or else a file. -/
structure IsSource (setting : String → Option Value) (servicePath : Path) (source : SchemaSource) : Prop where
  directory : ∀ text, HasText (setting "schemaDir") text → source = ⟨.directory, placeOf servicePath text⟩
  file : IsUnset (setting "schemaDir") →
    ∃ text, HasText (setting "schema") text ∧ source = ⟨.file, placeOf servicePath text⟩

/-- Whether the settings of the interface are what the section says. -/
structure IsInterface (setting : String → Option Value) (servicePath : Path) (interface : InterfaceSettings) :
    Prop where
  source : IsSource setting servicePath interface.source
  role : ∀ role, HasText (setting "serviceRole") role → interface.serviceRole = role
  defaultRole : IsUnset (setting "serviceRole") → interface.serviceRole = "AppSyncServiceRole"
  dataSources : interface.dataSources.map .map = listed (setting "dataSources")
  mappingTemplates : interface.mappingTemplates.map .map = listed (setting "mappingTemplates")

variable {entries : Entries} {servicePath : Path}

theorem sourcePath_eq {text : String} (h : (Path.ofString text).hasNull = false) :
    sourcePath servicePath text = .ok (placeOf servicePath text) := by
  unfold sourcePath placeOf
  dsimp only
  rw [h]
  split <;> rfl

theorem readSource_gated (hnull : NoNull (setting? entries)) :
    Gated (sourceChecks (setting? entries)) (readSource entries servicePath)
      (IsSource (setting? entries) servicePath) := by
  apply (readText_gated _ _).bind
  intro _ directory? hdirectory
  cases directory? with
  | some directory =>
    -- a file is not looked for
    have hset : ¬ IsUnset (setting? entries "schemaDir") := hdirectory.not_isUnset
    refine .cons_holds (absurd · hset) (.cons_holds (absurd · hset) ?_)
    dsimp only
    rw [sourcePath_eq (hnull _ List.mem_cons_self _ hdirectory)]
    refine .of_ok ⟨fun text htext => ?_, fun hunset => absurd hunset hset⟩
    rw [hdirectory.unique htext]
  | none =>
    -- the checks of the file are made as they stand
    have hunset : IsUnset (setting? entries "schemaDir") := hdirectory
    simp only [hunset, true_implies]
    change Gated ([textCheck "custom.appSync.schema" (setting? entries "schema")] ++ _) _ _
    apply (readText_gated _ _).bind
    intro _ file? hfile
    cases file? with
    | some file =>
      refine .cons_holds hfile.not_isUnset ?_
      dsimp only
      rw [sourcePath_eq (hnull _ (List.mem_cons_of_mem _ List.mem_cons_self) _ hfile)]
      exact .of_ok ⟨fun text htext => absurd hunset htext.not_isUnset, fun _ => ⟨file, hfile, rfl⟩⟩
    | none => exact .cons_fails (fun hset => hset hfile) _ _

/-- The role that is set counts, and else the default. -/
theorem role_of_says {role? : Option String} {value? : Option Value} (h : Says value? role?) :
    (∀ role, HasText value? role → role?.getD defaultServiceRole = role) ∧
      (IsUnset value? → role?.getD defaultServiceRole = "AppSyncServiceRole") := by
  cases role? with
  | some role => exact ⟨fun role' h' => HasText.unique h h', fun hunset => absurd hunset (HasText.not_isUnset h)⟩
  | none => exact ⟨fun role h' => absurd h h'.not_isUnset, fun _ => rfl⟩

theorem readInterface_gated (hnull : NoNull (setting? entries)) :
    Gated (sectionChecks (setting? entries)) (readInterface entries servicePath)
      (fun interface => IsInterface (setting? entries) servicePath interface ∧ interface.raw = entries) := by
  unfold readInterface
  apply (readSource_gated hnull).bind
  intro _ source hsource
  apply (readText_gated _ _).bind
  intro _ role? hrole
  apply (readMappings_gated _ _).bind
  intro _ dataSources hdataSources
  apply (readMappings_gated _ _).map
  intro mappingTemplates hmappingTemplates
  obtain ⟨hrole, hdefault⟩ := role_of_says hrole
  exact ⟨⟨hsource, hrole, hdefault, hdataSources, hmappingTemplates⟩, rfl⟩

end Settings

/-! ## The whole configuration -/

/-- The setting that names lead to from a value. -/
def Yaml.Value.settingAt? (value : Value) : List String → Option Value
  | [] => some value
  | name :: names =>
    match value with
    | .map entries => (Settings.setting? entries name).bind (·.settingAt? names)
    | _ => none

/-- The checks of the settings: of the section, and then of the functions. -/
def settingsChecks (value : Value) : List Check :=
  [⟨∃ entries, value.settingAt? ["custom", "appSync"] = some (.map entries), .sectionMissing "custom.appSync"⟩] ++
    (sectionChecks (fun name => value.settingAt? ["custom", "appSync", name]) ++
      [⟨∀ functions ∈ value.settingAt? ["functions"], functions.IsMapping ∨ functions.isFalsy = true,
        .functionsNotMapping⟩])

/-- The checks of a configuration, in the order in which they are made. -/
def gate (value : Value) : List Check :=
  [⟨value = .null ∨ value.IsMapping, .rootNotMapping⟩] ++
    (settingsChecks value ++ [textCheck "service" (value.settingAt? ["service"])])

/-- The entries of a setting that is a mapping. -/
def mapped : Option Value → Entries
  | some (.map entries) => entries
  | _ => []

/-- Whether a service is what a configuration says. -/
structure Describes (value : Value) (path servicePath : Path) (service : Service) : Prop where
  name : Says (value.settingAt? ["service"]) service.name?
  functions : service.settings.functions = mapped (value.settingAt? ["functions"])
  interface : Settings.IsInterface (fun name => value.settingAt? ["custom", "appSync", name]) servicePath
    service.settings.interface
  raw : value.settingAt? ["custom", "appSync"] = some (.map service.settings.interface.raw)
  path : service.path = path
  place : service.settings.servicePath = servicePath

section Root

variable {value : Value} {root : Entries} {path servicePath : Path}

/-- Whether entries are those of the root: names lead from them to where they lead from the value. -/
def IsRoot (value : Value) (root : Entries) : Prop :=
  ∀ name names, value.settingAt? (name :: names) = (Settings.setting? root name).bind (·.settingAt? names)

theorem IsRoot.settingAt?_name (h : IsRoot value root) (name : String) :
    value.settingAt? [name] = Settings.setting? root name := by
  rw [h]
  exact Option.bind_fun_some _

/-- Names lead on from where other names lead. -/
theorem settingAt?_append (value : Value) (names others : List String) :
    value.settingAt? (names ++ others) = (value.settingAt? names).bind (·.settingAt? others) := by
  induction names generalizing value with
  | nil => rfl
  | cons name names ih =>
    cases value with
    | map entries =>
      show (Settings.setting? entries name).bind _ = ((Settings.setting? entries name).bind _).bind _
      rw [Option.bind_assoc]
      exact Option.bind_congr fun inner _ => ih inner
    | _ => rfl

theorem readRoot_gated (value : Value) :
    Gated [⟨value = .null ∨ value.IsMapping, .rootNotMapping⟩] (Settings.readRoot value) (IsRoot value) := by
  unfold Settings.readRoot
  split
  · exact .cons_holds (.inl rfl) (.of_ok fun _ _ => rfl)
  · rename_i entries
    exact .cons_holds (.inr ⟨entries, rfl⟩) (.of_ok fun _ _ => rfl)
  · rename_i hnull hmap
    refine .cons_fails ?_ _ _
    rintro (h | ⟨entries, h⟩)
    · exact hnull h
    · exact hmap entries h

theorem readSection_gated (hroot : IsRoot value root) :
    Gated [⟨∃ entries, value.settingAt? ["custom", "appSync"] = some (.map entries), .sectionMissing "custom.appSync"⟩]
      (Settings.readSection root) (fun entries => value.settingAt? ["custom", "appSync"] = some (.map entries)) := by
  rw [hroot]
  unfold Settings.readSection
  split
  · rename_i custom hcustom
    rw [hcustom]
    have hat : Value.settingAt? (.map custom) ["appSync"] = Settings.setting? custom "appSync" := Option.bind_fun_some _
    rw [Option.bind_some, hat]
    split
    · rename_i entries hentries
      exact .cons_holds ⟨entries, hentries⟩ (.of_ok hentries)
    · rename_i hmissing
      refine .cons_fails ?_ _ _
      rintro ⟨entries, h⟩
      exact hmissing entries h
  · rename_i hmissing
    refine .cons_fails ?_ _ _
    rintro ⟨entries, h⟩
    obtain ⟨inner, hinner, hat⟩ := Option.bind_eq_some_iff.mp h
    cases inner with
    | map custom => exact hmissing custom hinner
    | _ => cases hat

theorem readFunctions_gated (functions? : Option Value) :
    Gated [⟨∀ functions ∈ functions?, functions.IsMapping ∨ functions.isFalsy = true, .functionsNotMapping⟩]
      (Settings.readFunctions functions?) (· = mapped functions?) := by
  unfold Settings.readFunctions
  split
  · exact .cons_holds nofun (.of_ok rfl)
  · rename_i entries
    refine .cons_holds ?_ (.of_ok rfl)
    rintro _ ⟨⟩
    exact .inl ⟨entries, rfl⟩
  · rename_i functions hmap
    have hmapped : mapped (some functions) = [] := by
      unfold mapped
      split
      · rename_i entries h
        exact absurd (Option.some.inj h) (hmap entries)
      · rfl
    split
    · rename_i hfalsy
      refine .cons_holds ?_ (.of_ok hmapped.symm)
      rintro _ ⟨⟩
      exact .inr hfalsy
    · rename_i hfalsy
      refine .cons_fails ?_ _ _
      intro h
      rcases h functions rfl with ⟨entries, h⟩ | h
      · exact hmap entries h
      · exact hfalsy h

/-- The service that the value of a configuration describes, seen from a directory. -/
def readValue (path servicePath : Path) (value : Value) : Except SettingsError Service := do
  let root ← Settings.readRoot value
  let settings ← Settings.ofRoot root servicePath
  let name? ← Settings.readServiceName root
  return ⟨path, name?, settings⟩

/-- The settings of a root, whatever the service is called. -/
theorem ofRoot_gated (path servicePath : Path) (hroot : IsRoot value root)
    (hnull : Settings.NoNull fun name => value.settingAt? ["custom", "appSync", name]) :
    Gated (settingsChecks value) (Settings.ofRoot root servicePath) (fun settings =>
      ∀ name?, Says (value.settingAt? ["service"]) name? → Describes value path servicePath ⟨path, name?, settings⟩) := by
  apply (readSection_gated hroot).bind
  intro _ entries hentries
  -- the settings of the section are its entries
  have hsetting : (fun name => value.settingAt? ["custom", "appSync", name]) = Settings.setting? entries := by
    funext name
    rw [show ["custom", "appSync", name] = ["custom", "appSync"] ++ [name] from rfl, settingAt?_append, hentries]
    exact Option.bind_fun_some _
  rw [hsetting] at hnull ⊢
  apply (Settings.readInterface_gated hnull).bind
  rintro - interface ⟨hinterface, rfl⟩
  rw [hroot.settingAt?_name "functions"]
  apply (readFunctions_gated _).map
  rintro functions rfl name? hname
  refine ⟨hname, ?_, ?_, hentries, rfl, rfl⟩
  · exact congrArg mapped (hroot.settingAt?_name "functions").symm
  · rw [hsetting]
    exact hinterface

theorem readValue_gated (path servicePath : Path)
    (hnull : Settings.NoNull fun name => value.settingAt? ["custom", "appSync", name]) :
    Gated (gate value) (readValue path servicePath value) (Describes value path servicePath) := by
  apply (readRoot_gated value).bind
  intro _ root hroot
  apply (ofRoot_gated path servicePath hroot hnull).bind
  intro _ settings hsettings
  rw [hroot.settingAt?_name "service"] at hsettings ⊢
  apply (Settings.readText_gated _ _).map
  exact hsettings

end Root

/-! ## Loading -/

/-- The directory that the settings in a file are seen from, if the path of the one that is asked for can be one. -/
def serviceDirectory (files : FileSystem) (path : Path) (directory? : Option String) : Path :=
  match directory?.filter (!·.isEmpty) with
  | none => (files.resolve path).parent
  | some directory => files.resolve (.ofString directory)

section Loading

variable {world : World} {path servicePath : Path} {directory? : Option String} {bytes : ByteArray} {text : String}
  {value : Value}

theorem servicePathOf_eq (files : FileSystem) (path : Path)
    (hdirectory : ∀ text ∈ directory?, (Path.ofString text).hasNull = false) :
    servicePathOf files path directory? = .ok (serviceDirectory files path directory?) := by
  unfold servicePathOf serviceDirectory
  cases hasked : directory?.filter (!·.isEmpty) with
  | none => rfl
  | some directory =>
    dsimp only
    rw [hdirectory directory (Option.eq_some_of_filter_eq_some hasked)]
    rfl

/-- What is loaded from a file depends on the value of its text, and on the directory it is seen from. -/
theorem loadService_of_value (hexists : world.files.pathExists path = .ok true)
    (hread : world.files.read path = .ok bytes) (htext : Utf8.decodeLines bytes = .ok text)
    (hvalue : load text = .ok value) (hplace : servicePathOf world.files path directory? = .ok servicePath) :
    (loadService path directory? world).1 = (readValue path servicePath value).mapError .invalid := by
  have hfiles : (Run.files : Run SettingsFileError FileSystem) world = (.ok world.files, world) := rfl
  rw [loadService, Run.bind_of_ok hfiles, hexists, hread]
  show ((Run.ofResult SettingsFileError.notUtf8 (Utf8.decodeLines bytes) >>= _) world).1 = _
  rw [htext]
  show ((Run.ofResult (SettingsFileError.malformed text) (load text) >>= _) world).1 = _
  rw [hvalue]
  show ((Run.ofResult SettingsFileError.invalid (Settings.readRoot value) >>= _) world).1 = _
  unfold readValue
  cases Settings.readRoot value with
  | error e => rfl
  | ok root =>
    show ((Run.ofResult SettingsFileError.unreadable (servicePathOf world.files path directory?) >>= _) world).1 = _
    rw [hplace]
    show ((Run.ofResult SettingsFileError.invalid (Settings.ofRoot root servicePath) >>= _) world).1
      = Except.mapError _ (Settings.ofRoot root servicePath >>= _)
    cases Settings.ofRoot root servicePath with
    | error e => rfl
    | ok settings =>
      show ((Run.ofResult SettingsFileError.invalid (Settings.readServiceName root) >>= _) _).1
        = Except.mapError _ (Settings.readServiceName root >>= _)
      cases Settings.readServiceName root <;> rfl

/-- The gate: a configuration that can be read is loaded as it stands if all its checks hold. Otherwise the first
one that does not hold is reported. -/
theorem loadService_gated (hexists : world.files.pathExists path = .ok true)
    (hread : world.files.read path = .ok bytes) (htext : Utf8.decodeLines bytes = .ok text)
    (hvalue : load text = .ok value)
    (hdirectory : ∀ text ∈ directory?, (Path.ofString text).hasNull = false)
    (hnull : Settings.NoNull fun name => value.settingAt? ["custom", "appSync", name]) :
    (∀ error, (loadService path directory? world).1 = .error error ↔
      ∃ reason, error = .invalid reason ∧ FirstFails (gate value) reason) ∧
    ((∀ check ∈ gate value, check.holds) → ∃ service, (loadService path directory? world).1 = .ok service ∧
      Describes value path (serviceDirectory world.files path directory?) service) := by
  rw [loadService_of_value hexists hread htext hvalue (servicePathOf_eq _ _ hdirectory)]
  have hgated := readValue_gated path (serviceDirectory world.files path directory?) hnull
  constructor
  · intro error
    simp only [← hgated.eq_error_iff]
    cases readValue path (serviceDirectory world.files path directory?) value with
    | error reason => simp [Except.mapError, eq_comm]
    | ok service => simp [Except.mapError]
  · intro hall
    obtain ⟨service, hservice, hdescribes⟩ := hgated.passes hall
    exact ⟨service, by rw [hservice]; rfl, hdescribes⟩

end Loading

/-! ## Two configurations -/

/-- What the setting says that names lead to from a value. -/
def textAt (value : Value) (names : List String) : Option String :=
  match value.settingAt? names with
  | some (.string text) => some (String.ofList (stripBlanks text.toList))
  | _ => none

theorem textAt_of_hasText {value : Value} {names : List String} {trimmed : String}
    (h : HasText (value.settingAt? names) trimmed) : textAt value names = some trimmed := by
  obtain ⟨text, htext, htrimmed, -⟩ := h
  rw [textAt, htext]
  exact congrArg some (by rw [← isTrimmed_iff.mp htrimmed, String.ofList_toList])

/-- The texts that can name the source of the schema. -/
def textsOfSource (value : Value) : List String :=
  ["schemaDir", "schema"].filterMap fun name => textAt value ["custom", "appSync", name]

/-- Settings have paths that files can have, if there is only one text among them and it is such a path. -/
theorem noNull_of_texts {value : Value} {text : String} (hfits : (Path.ofString text).hasNull = false)
    (htexts : textsOfSource value = [text]) :
    Settings.NoNull fun name => value.settingAt? ["custom", "appSync", name] := by
  intro name hname said hsaid
  have hmem : said ∈ textsOfSource value :=
    List.mem_filterMap.mpr ⟨name, hname, textAt_of_hasText hsaid⟩
  rw [htexts] at hmem
  rwa [List.mem_singleton.mp hmem]

/-- The error of a result. -/
def refusal? {α : Type} : Except SettingsError α → Option SettingsError
  | .error reason => some reason
  | .ok _ => none

theorem refusal?_eq_some {α : Type} {result : Except SettingsError α} {reason : SettingsError} :
    refusal? result = some reason ↔ result = .error reason := by
  cases result <;> simp [refusal?]

/-- A configuration with white space around its texts; an item of its list is the mapping that the list stands in. -/
def acceptedConfiguration : String :=
  "service: ' wiring '\ncustom: &all\n  appSync:\n    schemaDir: ' /src '\n    serviceRole: ' '\n    dataSources:\n"
    ++ "    - name: d\n    - *all\n"

/-- A configuration with an item that is no mapping, and with functions that are none. -/
def refusedConfiguration : String :=
  "custom:\n  appSync:\n    schema: /s.graphql\n    dataSources: [1]\nfunctions: 5\n"

theorem ofString_src : Path.ofString "/src" = ⟨.single, ["src"]⟩ := by cbv

theorem ofString_schemaFile : Path.ofString "/s.graphql" = ⟨.single, ["s.graphql"]⟩ := by cbv

/-- What is loaded from the configuration in the root directory. -/
theorem loadService_of_load {configuration : String} {value : Value} (hreturn : '\r' ∉ configuration.toList)
    (hvalue : load configuration = .ok value) :
    (loadService ⟨.none, ["serverless.yml"]⟩ none (serviceFiles configuration "")).1
      = (readValue ⟨.none, ["serverless.yml"]⟩ ⟨.single, []⟩ value).mapError .invalid :=
  loadService_of_value (pathExists_serviceFiles configuration "") (read_serviceFiles configuration "")
    (decodeLines_toUTF8 hreturn) hvalue rfl

/-- The accepted configuration passes all checks. Of the two checks that the other one does not pass the first is
reported. -/
theorem loadService_gated_both :
    (∃ value service, load acceptedConfiguration = .ok value ∧ (∀ check ∈ gate value, check.holds) ∧
      (loadService ⟨.none, ["serverless.yml"]⟩ none (serviceFiles acceptedConfiguration "")).1 = .ok service ∧
      Describes value ⟨.none, ["serverless.yml"]⟩ ⟨.single, []⟩ service ∧ service.name? = some "wiring" ∧
      service.settings.interface.source = ⟨.directory, ⟨.single, ["src"]⟩⟩ ∧
      service.settings.interface.serviceRole = "AppSyncServiceRole" ∧
      service.settings.interface.dataSources.length = 2) ∧
    ∃ value, load refusedConfiguration = .ok value ∧
      FirstFails (gate value) (.itemNotMapping "custom.appSync.dataSources") ∧
      (loadService ⟨.none, ["serverless.yml"]⟩ none (serviceFiles refusedConfiguration "")).1
        = .error (.invalid (.itemNotMapping "custom.appSync.dataSources")) := by
  have hdirectory : ∀ text ∈ (none : Option String), (Path.ofString text).hasNull = false :=
    fun _ h => absurd h (Option.not_mem_none _)
  constructor
  · have hreturn : '\r' ∉ acceptedConfiguration.toList := by decide +kernel
    obtain ⟨value, hvalue, hparts⟩ := Option.map_eq_some_iff.mp (show (load acceptedConfiguration).toOption.map
        (fun value => (textsOfSource value, (readValue ⟨.none, ["serverless.yml"]⟩ ⟨.single, []⟩ value).toOption.map
          fun service => (service.name?, service.settings.interface.source, service.settings.interface.serviceRole,
            service.settings.interface.dataSources.length)))
        = some (["/src"], some (some "wiring", ⟨.directory, ⟨.single, ["src"]⟩⟩, "AppSyncServiceRole", 2)) by
      decide +kernel)
    simp only [Prod.mk.injEq, Option.map_eq_some_iff] at hparts
    obtain ⟨htexts, service, hservice, hsays⟩ := hparts
    have hvalue := toOption_eq_some.mp hvalue
    have hgated := loadService_gated (pathExists_serviceFiles acceptedConfiguration "")
      (read_serviceFiles acceptedConfiguration "") (decodeLines_toUTF8 hreturn) hvalue hdirectory
      (noNull_of_texts (by simp [ofString_src, Path.hasNull]) htexts)
    have hloaded := loadService_of_load hreturn hvalue
    rw [toOption_eq_some.mp hservice] at hloaded
    have hall : ∀ check ∈ gate value, check.holds := by
      refine (forall_holds_or_firstFails (gate value)).resolve_right ?_
      rintro ⟨reason, hfails⟩
      cases hloaded.symm.trans ((hgated.1 _).mpr ⟨reason, rfl, hfails⟩)
    obtain ⟨_, hsame, hdescribes⟩ := hgated.2 hall
    cases hloaded.symm.trans hsame
    exact ⟨value, service, hvalue, hall, hloaded, hdescribes, hsays⟩
  · have hreturn : '\r' ∉ refusedConfiguration.toList := by decide +kernel
    obtain ⟨value, hvalue, hparts⟩ := Option.map_eq_some_iff.mp (show (load refusedConfiguration).toOption.map
        (fun value => (textsOfSource value,
          refusal? (readValue ⟨.none, ["serverless.yml"]⟩ ⟨.single, []⟩ value)))
        = some (["/s.graphql"], some (.itemNotMapping "custom.appSync.dataSources")) by
      decide +kernel)
    simp only [Prod.mk.injEq, refusal?_eq_some] at hparts
    obtain ⟨htexts, hrefused⟩ := hparts
    have hvalue := toOption_eq_some.mp hvalue
    have hgated := loadService_gated (pathExists_serviceFiles refusedConfiguration "")
      (read_serviceFiles refusedConfiguration "") (decodeLines_toUTF8 hreturn) hvalue hdirectory
      (noNull_of_texts (by simp [ofString_schemaFile, Path.hasNull]) htexts)
    have hloaded := loadService_of_load hreturn hvalue
    rw [hrefused] at hloaded
    obtain ⟨reason, hsame, hfails⟩ := (hgated.1 _).mp hloaded
    cases hsame
    exact ⟨value, hvalue, hfails, hloaded⟩

end ResolverWiring
