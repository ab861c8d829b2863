import ResolverWiring.Proofs.Resources
import ResolverWiring.Proofs.Service.CleanSchema
import ResolverWiring.Proofs.Service.Gate
import ResolverWiring.Proofs.Yaml.LoadedKeys
import ResolverWiring.Proofs.Yaml.PlainEntries
import ResolverWiring.Service.ResourceFile

/-!
# `Proofs.PlainResources` — what of the resources is left when they are made plain

Resources are made plain before they are written. Every mapping in the resources of a loaded service has distinct keys,
and it is kept if the texts of its keys differ, as those of texts do. If two keys have one text, as an integer and the
text that shows it have, an entry is lost (`resources_kept_iff`).

Keys are distinct at every depth of the configuration that is loaded, so they are in all parts that settings take from
it (`Settings.HaveDistinctKeys`), and laying generated entries over these keeps it that way.
-/

namespace ResolverWiring

open Files Yaml

variable {settings : Settings} {entries root : Entries} {inner value : Value} {name : String}

/-! ## Values in plain values -/

theorem Yaml.Value.plainItems_eq_map (items : List Value) : Value.plainItems items = items.map Value.plain := by
  induction items with
  | nil => rfl
  | cons item items ih => rw [Value.plainItems, ih, List.map_cons]

/-- What stands in a value stands, made plain, in the plain form of the value, if no mapping loses entries. -/
theorem Yaml.Value.Within.plain (h : inner.Within value)
    (hkept : ∀ entries, (Value.map entries).Within value → (Value.texts entries).Nodup) :
    inner.plain.Within value.plain := by
  induction h with
  | self => exact .self _
  | item hitem hinner ih =>
    rw [Value.plain, Value.plainItems_eq_map]
    exact .item (List.mem_map_of_mem hitem) (ih fun entries h => hkept entries (.item hitem h))
  | member hitem hinner ih =>
    rw [Value.plain, Value.plainItems_eq_map]
    exact .item (List.mem_map_of_mem hitem) (ih fun entries h => hkept entries (.member hitem h))
  | @entry entry entries hentry hinner ih =>
    -- The mapping is kept, so its entries are still there, each under its text.
    have hplain : Value.plainEntries [] entries
        = entries.map fun entry => (.string entry.1.keyText, entry.2.plain) :=
      Value.plainEntries_of_nodup (hkept entries (.self _))
    have hmem : (Value.string entry.1.keyText, entry.2.plain) ∈ Value.plainEntries [] entries := by
      rw [hplain]
      exact List.mem_map.mpr ⟨entry, hentry, rfl⟩
    rw [Value.plain]
    exact .entry hmem (ih fun entries h => hkept entries (.entry hentry h))

/-! ## Settings -/

/-- Whether the mappings in settings have distinct keys. -/
structure Settings.HaveDistinctKeys (settings : Settings) : Prop where
  functions : (Value.map settings.functions).HasDistinctKeys
  raw : (Value.map settings.interface.raw).HasDistinctKeys
  dataSources : ∀ source ∈ settings.interface.dataSources.map Value.map, source.HasDistinctKeys
  mappingTemplates : ∀ template ∈ settings.interface.mappingTemplates.map Value.map, template.HasDistinctKeys

/-- What has passed its checks is good. -/
theorem Gated.good_of_ok {α : Type} {checks : List Check} {result : Except SettingsError α} {good : α → Prop} {a : α}
    (h : Gated checks result good) (hok : result = .ok a) : good a := by
  rcases forall_holds_or_firstFails checks with hall | ⟨error, hfails⟩
  · obtain ⟨found, hfound, hgood⟩ := h.passes hall
    cases hok.symm.trans hfound
    exact hgood
  · cases hok.symm.trans (h.fails error hfails)

theorem setting?_hasDistinctKeys (h : (Value.map entries).HasDistinctKeys)
    (hvalue : Settings.setting? entries name = some value) : value.HasDistinctKeys := by
  obtain ⟨found, hfound, rfl⟩ := Option.map_eq_some_iff.mp hvalue
  exact Value.opened_hasDistinctKeys ((Value.hasDistinctKeys_map.mp h).2 _ (Value.mem_of_lookup? hfound))

/-- The items of a setting that is a list. -/
theorem listed_hasDistinctKeys (h : (Value.map entries).HasDistinctKeys) :
    ∀ item ∈ listed (Settings.setting? entries name), item.HasDistinctKeys := by
  intro item hitem
  unfold listed at hitem
  split at hitem
  · rename_i items hsetting
    obtain ⟨found, hfound, rfl⟩ := List.mem_map.mp hitem
    exact Value.opened_hasDistinctKeys (Value.hasDistinctKeys_list.mp (setting?_hasDistinctKeys h hsetting) found hfound)
  · cases hitem

theorem mapped_hasDistinctKeys (h : (Value.map entries).HasDistinctKeys) :
    (Value.map (mapped (Settings.setting? entries name))).HasDistinctKeys := by
  unfold mapped
  split
  · rename_i found hsetting
    exact setting?_hasDistinctKeys h hsetting
  · exact Value.hasDistinctKeys_map.mpr ⟨List.Pairwise.nil, nofun⟩

theorem readSection_hasDistinctKeys (h : (Value.map root).HasDistinctKeys)
    (hsection : Settings.readSection root = .ok entries) : (Value.map entries).HasDistinctKeys := by
  unfold Settings.readSection at hsection
  split at hsection
  · rename_i custom hcustom
    split at hsection
    · rename_i found hfound
      cases hsection
      exact setting?_hasDistinctKeys (setting?_hasDistinctKeys h hcustom) hfound
    · cases hsection
  · cases hsection

/-- Settings are parts of the root. -/
theorem ofRoot_haveDistinctKeys {servicePath : Path} (h : (Value.map root).HasDistinctKeys)
    (hsettings : Settings.ofRoot root servicePath = .ok settings) : settings.HaveDistinctKeys := by
  obtain ⟨interfaceSection, hsection, hsettings⟩ := result_bind_eq_ok hsettings
  obtain ⟨interface, hinterface, hsettings⟩ := result_bind_eq_ok hsettings
  obtain ⟨functions, hfunctions, hsettings⟩ := result_bind_eq_ok hsettings
  cases hsettings
  have hsection := readSection_hasDistinctKeys h hsection
  obtain ⟨source, _, hinterface⟩ := result_bind_eq_ok hinterface
  obtain ⟨role?, _, hinterface⟩ := result_bind_eq_ok hinterface
  obtain ⟨dataSources, hdataSources, hinterface⟩ := result_bind_eq_ok hinterface
  obtain ⟨mappingTemplates, hmappingTemplates, hinterface⟩ := result_bind_eq_ok hinterface
  cases hinterface
  have hfunctions : functions = mapped (Settings.setting? root "functions") :=
    (readFunctions_gated _).good_of_ok hfunctions
  have hdataSources : dataSources.map Value.map = listed (Settings.setting? interfaceSection "dataSources") :=
    (Settings.readMappings_gated _ _).good_of_ok hdataSources
  have hmappingTemplates :
      mappingTemplates.map Value.map = listed (Settings.setting? interfaceSection "mappingTemplates") :=
    (Settings.readMappings_gated _ _).good_of_ok hmappingTemplates
  refine ⟨?_, hsection, ?_, ?_⟩
  · rw [hfunctions]
    exact mapped_hasDistinctKeys h
  · show ∀ source ∈ dataSources.map Value.map, source.HasDistinctKeys
    rw [hdataSources]
    exact listed_hasDistinctKeys hsection
  · show ∀ template ∈ mappingTemplates.map Value.map, template.HasDistinctKeys
    rw [hmappingTemplates]
    exact listed_hasDistinctKeys hsection

/-- The settings of a service come from the root of a text that is loaded. -/
theorem loadService_root {path : Path} {directory? : Option String} {world after : World} {service : Service}
    (h : loadService path directory? world = (.ok service, after)) : ∃ text value root servicePath,
      load text = .ok value ∧ Settings.readRoot value = .ok root ∧
        Settings.ofRoot root servicePath = .ok service.settings := by
  obtain ⟨files, _, _, h⟩ := Run.bind_eq_ok h
  obtain ⟨isThere, _, _, h⟩ := Run.bind_eq_ok h
  cases isThere with
  | false => cases h
  | true =>
    obtain ⟨bytes, _, _, h⟩ := Run.bind_eq_ok h
    obtain ⟨text, _, _, h⟩ := Run.bind_eq_ok h
    obtain ⟨value, _, hvalue, h⟩ := Run.bind_eq_ok h
    obtain ⟨root, _, hroot, h⟩ := Run.bind_eq_ok h
    obtain ⟨servicePath, _, _, h⟩ := Run.bind_eq_ok h
    obtain ⟨settings, _, hsettings, h⟩ := Run.bind_eq_ok h
    obtain ⟨_, _, _, h⟩ := Run.bind_eq_ok h
    obtain ⟨name?, _, _, h⟩ := Run.bind_eq_ok h
    cases h
    exact ⟨text, value, root, servicePath, (Run.ofResult_eq_ok hvalue).1, (Run.ofResult_eq_ok hroot).1,
      (Run.ofResult_eq_ok hsettings).1⟩

theorem readRoot_hasDistinctKeys (h : value.HasDistinctKeys) (hroot : Settings.readRoot value = .ok root) :
    (Value.map root).HasDistinctKeys := by
  unfold Settings.readRoot at hroot
  split at hroot
  · cases hroot
    exact Value.hasDistinctKeys_map.mpr ⟨List.Pairwise.nil, nofun⟩
  · cases hroot
    exact h
  · cases hroot

theorem loadService_haveDistinctKeys {path : Path} {directory? : Option String} {world after : World}
    {service : Service} (h : loadService path directory? world = (.ok service, after)) :
    service.settings.HaveDistinctKeys := by
  obtain ⟨text, value, root, servicePath, hvalue, hroot, hsettings⟩ := loadService_root h
  exact ofRoot_haveDistinctKeys (readRoot_hasDistinctKeys (load_hasDistinctKeys hvalue) hroot) hsettings

/-! ## Resources -/

theorem record_hasDistinctKeys {parts : List (String × Value)} (hnames : (parts.map (·.1)).Nodup)
    (hparts : ∀ part ∈ parts, part.2.HasDistinctKeys) : (record parts).HasDistinctKeys := by
  have hkeys : Value.DistinctKeys (parts.map fun part => (.string part.1, part.2)) := Value.distinctKeys_map hnames
  exact Value.hasDistinctKeys_map.mpr ⟨hkeys, List.forall_mem_map.mpr hparts⟩

theorem text_hasDistinctKeys (text : String) : (Value.string text).HasDistinctKeys :=
  Value.IsAtom.hasDistinctKeys trivial

theorem function_hasDistinctKeys (b : Binding) : b.function.2.HasDistinctKeys := by
  apply record_hasDistinctKeys (by simp)
  simp [text_hasDistinctKeys]

theorem dataSource_hasDistinctKeys (b : Binding) (role : String) : (b.dataSource role).HasDistinctKeys := by
  have hrole : (record [("Fn::GetAtt", .list [.string role, .string "Arn"])]).HasDistinctKeys := by
    apply record_hasDistinctKeys (by simp)
    simp [Value.hasDistinctKeys_list, text_hasDistinctKeys]
  have hconfig : (record [("functionName", .string b.qualifiedName),
      ("serviceRoleArn", record [("Fn::GetAtt", .list [.string role, .string "Arn"])])]).HasDistinctKeys := by
    apply record_hasDistinctKeys (by simp)
    simp [text_hasDistinctKeys, hrole]
  apply record_hasDistinctKeys (by simp)
  simp [text_hasDistinctKeys, hconfig]

theorem mappingTemplate_hasDistinctKeys (b : Binding) (templates : Path) :
    (b.mappingTemplate templates).HasDistinctKeys := by
  apply record_hasDistinctKeys (by simp)
  simp [text_hasDistinctKeys]

/-- Generated entries behind declared ones. -/
theorem append_hasDistinctKeys {declared generated : List Value} (hdeclared : ∀ v ∈ declared, v.HasDistinctKeys)
    (hgenerated : ∀ v ∈ generated, v.HasDistinctKeys) : (Value.list (declared ++ generated)).HasDistinctKeys :=
  Value.hasDistinctKeys_list.mpr (List.forall_mem_append.mpr ⟨hdeclared, hgenerated⟩)

theorem functionEntries_hasDistinctKeys (h : settings.HaveDistinctKeys) (bindings : List Binding) :
    (Value.map (functionEntries settings bindings)).HasDistinctKeys := by
  apply h.functions.overlay
  intro entry hentry
  -- Generated entries are first laid over none at all, where the last one of a name stays.
  rcases Value.value_overlay_mem hentry with ⟨generated, hgenerated, heq⟩ | hmem
  · obtain ⟨b, -, rfl⟩ := List.mem_map.mp hgenerated
    rw [heq]
    exact function_hasDistinctKeys b
  · cases hmem

theorem interfaceEntries_hasDistinctKeys (h : settings.HaveDistinctKeys) (bindings : List Binding) (role : String)
    (templates : Path) : (Value.map (interfaceEntries settings bindings role templates)).HasDistinctKeys := by
  apply h.raw.overlay
  have hsources := append_hasDistinctKeys h.dataSources
    (List.forall_mem_map.mpr fun b (_ : b ∈ bindings) => dataSource_hasDistinctKeys b role)
  have htemplates := append_hasDistinctKeys h.mappingTemplates
    (List.forall_mem_map.mpr fun b (_ : b ∈ bindings) => mappingTemplate_hasDistinctKeys b templates)
  refine List.forall_mem_cons.mpr ⟨text_hasDistinctKeys _, List.forall_mem_cons.mpr ⟨hsources, ?_⟩⟩
  exact List.forall_mem_singleton.mpr htemplates

/-- The mappings of resources have distinct keys if those of the settings have. -/
theorem resources_hasDistinctKeys (h : settings.HaveDistinctKeys) (bindings : List Binding) (role? : Option String)
    (templates : Path) : (resources settings bindings role? templates).HasDistinctKeys := by
  have hinterface := interfaceEntries_hasDistinctKeys h bindings (roleOf settings role?) templates
  have hcustom : (record [("appSync",
      .map (interfaceEntries settings bindings (roleOf settings role?) templates))]).HasDistinctKeys :=
    record_hasDistinctKeys (by simp) (List.forall_mem_singleton.mpr hinterface)
  apply record_hasDistinctKeys (by simp)
  exact List.forall_mem_cons.mpr ⟨functionEntries_hasDistinctKeys h bindings, List.forall_mem_singleton.mpr hcustom⟩

/-- Values that cannot be made plain are not written. -/
theorem resourcesText_eq_error (h : value.keysFit = false ∨ value.isEndless = true) :
    ∃ error, resourcesText value = .error error := by
  unfold resourcesText
  by_cases hendless : value.isEndless = true
  · exact ⟨_, if_pos hendless⟩
  · have hkeys : value.keysFit = false := h.resolve_right hendless
    have hprint : Yaml.print value = .error ⟨none⟩ := if_neg (by rw [hkeys]; exact Bool.false_ne_true)
    rw [if_neg hendless, hprint]
    exact ⟨_, rfl⟩

/-- **What is lost when resources are made plain.** The keys of every mapping in the resources of a loaded service are
distinct. The mapping is kept if no two of its keys have one text, and otherwise an entry is lost; nothing is lost of a
mapping whose keys are texts. If all mappings are kept, everything in the resources is also in what is written. Nothing
is written at all if an integer in a key is too long for a text, or if the resources hold themselves. -/
theorem resources_kept_iff {path : Path} {directory? : Option String} {world after : World} {service : Service}
    (h : loadService path directory? world = (.ok service, after)) (bindings : List Binding) (role? : Option String)
    (templates : Path) :
    (∀ entries, (Value.map entries).Within (resources service.settings bindings role? templates) →
      ∃ plain, (Value.map entries).plain = .map plain ∧ Value.DistinctKeys entries ∧
        (Value.IsKept entries plain ↔ (Value.texts entries).Nodup) ∧
        (¬(Value.texts entries).Nodup → plain.length < entries.length) ∧
        ((∀ entry ∈ entries, ∃ text, entry.1 = .string text) → Value.IsKept entries plain)) ∧
    ((∀ entries, (Value.map entries).Within (resources service.settings bindings role? templates) →
        (Value.texts entries).Nodup) →
      ∀ inner : Value, inner.Within (resources service.settings bindings role? templates) →
        inner.plain.Within (resources service.settings bindings role? templates).plain) ∧
    ((resources service.settings bindings role? templates).keysFit = false ∨
        (resources service.settings bindings role? templates).isEndless = true →
      ∃ error, resourcesText (resources service.settings bindings role? templates) = .error error) := by
  have hdistinct := resources_hasDistinctKeys (loadService_haveDistinctKeys h) bindings role? templates
  refine ⟨?_, ?_, resourcesText_eq_error⟩
  · intro entries hentries
    have hkeys := hdistinct entries hentries
    refine ⟨Value.plainEntries [] entries, rfl, hkeys, Value.isKept_plainEntries, Value.length_plainEntries_lt, ?_⟩
    intro htexts
    exact Value.isKept_plainEntries.mpr (Value.nodup_texts_of_strings hkeys htexts)
  · intro hkept inner hinner
    exact hinner.plain hkept

/-- The resources themselves are a mapping whose keys are texts. -/
theorem resources_kept_iff_file : ∃ service after entries plain,
    loadService ⟨.none, ["serverless.yml"]⟩ none (serviceFiles fileConfiguration "type A") = (.ok service, after) ∧
    resources service.settings [⟨"A", "f", "h"⟩] none ⟨.single, ["templates"]⟩ = .map entries ∧
    (Value.map entries).plain = .map plain ∧ Value.IsKept entries plain := by
  obtain ⟨service, after, hload, -⟩ := loadService_fileConfiguration "type A"
  have hkept := (resources_kept_iff hload [⟨"A", "f", "h"⟩] none ⟨.single, ["templates"]⟩).1
  obtain ⟨plain, hplain, -, -, -, htexts⟩ := hkept _ (.self _)
  refine ⟨service, after, _, plain, hload, rfl, hplain, htexts ?_⟩
  intro entry hentry
  obtain ⟨part, -, rfl⟩ := List.mem_map.mp hentry
  exact ⟨part.1, rfl⟩

/-- Two functions under an integer and the text that shows it. -/
def collidingConfiguration : String :=
  "custom: \x7bappSync: \x7bschema: /s.graphql\x7d\x7d\nfunctions: \x7b1: a, \"1\": b\x7d"

/-- Of the two functions of an accepted configuration one is lost. -/
theorem resources_lose_entry : ∃ service after entries plain,
    loadService ⟨.none, ["serverless.yml"]⟩ none (serviceFiles collidingConfiguration "type A") = (.ok service, after) ∧
    (Value.map entries).Within (resources service.settings [] none ⟨.single, ["templates"]⟩) ∧
    Value.DistinctKeys entries ∧ (Value.map entries).plain = .map plain ∧ plain.length < entries.length ∧
    ¬Value.IsKept entries plain := by
  have hload := loadService_of_text (pathExists_serviceFiles collidingConfiguration "type A")
    (read_serviceFiles collidingConfiguration "type A") (by decide +kernel)
  have hplace : ((serviceFiles collidingConfiguration "type A").files.resolve ⟨.none, ["serverless.yml"]⟩).parent
      = ⟨.single, []⟩ := rfl
  rw [hplace] at hload
  -- The service is computed no further than to the texts of its functions, which are all that decides.
  have htexts : (readServiceText ⟨.none, ["serverless.yml"]⟩ ⟨.single, []⟩ collidingConfiguration).toOption.map
      (fun service => Value.texts service.settings.functions) = some ["1", "1"] := by decide +kernel
  cases hservice : readServiceText ⟨.none, ["serverless.yml"]⟩ ⟨.single, []⟩ collidingConfiguration with
  | error e =>
    rw [hservice] at htexts
    cases htexts
  | ok service =>
    rw [hservice] at htexts
    have htexts : Value.texts service.settings.functions = ["1", "1"] := Option.some.inj htexts
    obtain ⟨after, hloaded⟩ : ∃ after, loadService ⟨.none, ["serverless.yml"]⟩ none
        (serviceFiles collidingConfiguration "type A") = (.ok service, after) :=
      ⟨_, Prod.ext (hload.trans hservice) rfl⟩
    have hcollide : ¬(Value.texts service.settings.functions).Nodup := by
      rw [htexts]
      decide
    refine ⟨service, after, service.settings.functions, Value.plainEntries [] service.settings.functions, hloaded,
      .entry List.mem_cons_self (.self _), ?_, rfl, Value.length_plainEntries_lt hcollide, ?_⟩
    · exact (loadService_haveDistinctKeys hloaded).functions _ (.self _)
    · intro hkept
      exact hcollide (Value.isKept_plainEntries.mp hkept)

end ResolverWiring
