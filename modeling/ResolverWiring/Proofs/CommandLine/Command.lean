import ResolverWiring.CommandLine.Outcome
import ResolverWiring.Proofs.CommandLine.Invocation
import ResolverWiring.Proofs.Service.Stops

/-!
# `Proofs.CommandLine.Command` — how commands fail

A command that fails has changed nothing, unless it was to generate resources (`Command.files_of_error`). Its error
is reported, unless the configuration or what is made of it is such as `Command.Stops` says
(`Command.failsWith_iff`): those errors are none of the program's own.
-/

namespace ResolverWiring.CommandLine

open Files

variable {templates : Path} {files : FileSystem} {world world' : World} {config : String} {service? : Option String}
  {settings : Settings} {command : Command}

/-! ## Failing commands change nothing -/

theorem loadSettings_alike (config : String) (service? : Option String) (files : FileSystem) :
    Run.Alike (loadSettings config service?) (loadSettings config service?) files files :=
  .bind (.mapError (loadService_alike _ _ _)) fun _ => .pure _

theorem loadSettings_files {result : Except CommandError Settings}
    (h : loadSettings config service? world = (result, world')) : world'.files = world.files :=
  Run.Alike.files_eq (loadSettings_alike config service?) h

theorem validateService_alike (settings : Settings) (files : FileSystem) :
    Run.Alike (validateService settings) (validateService settings) files files :=
  .bind (.mapError (extractService_alike (SchemaSource.seesSame_refl _ _))) fun _ =>
    .bind (.ofResult rfl) fun _ => .report _ _

/-- To validate a service is to read only. -/
theorem Command.validate_alike (templates : Path) (config : String) (service? : Option String) (files : FileSystem) :
    Run.Alike ((Command.validate config service?).run templates) ((Command.validate config service?).run templates)
      files files :=
  .bind (loadSettings_alike config service? files) fun settings =>
    .bind (.mapError (validateService_alike settings files)) fun _ => .pure _

/-- The kind of a command. -/
def Command.kind : Command → CommandKind
  | .extract _ _ => .extract
  | .generateConfig _ => .generateConfig
  | .generateResources _ _ _ _ => .generateResources
  | .validate _ _ => .validate

/-- A command that fails leaves the files as they are, unless it was to generate resources. -/
theorem Command.files_of_error {e : CommandError} (hkind : command.kind ≠ .generateResources)
    (h : command.run templates world = (.error e, world')) : world'.files = world.files := by
  cases command with
  | extract config service? =>
    rcases Run.bind_eq_error h with hload | ⟨settings, loaded, hload, hrest⟩
    · exact loadSettings_files hload
    · rw [← loadSettings_files hload]
      rcases Run.bind_eq_error hrest with hprocess | ⟨processed, between, -, hdone⟩
      · obtain ⟨e', he', -⟩ := Run.mapError_eq_error hprocess
        exact (processSchema_eq_error he').1
      · cases hdone
  | generateConfig output =>
    rcases Run.bind_eq_error h with hwrite | ⟨path, between, -, hdone⟩
    · obtain ⟨e', he', -⟩ := Run.mapError_eq_error hwrite
      exact writePlaceholder_eq_error he'
    · cases hdone
  | generateResources config service? output role? => exact absurd rfl hkind
  | validate config service? => exact Run.Alike.files_eq (Command.validate_alike templates config service?) h

/-! ## Commands that run to their end -/

theorem extractService_log (settings : Settings) (files : FileSystem) (log : List LogEntry) :
    (extractService settings ⟨files, log⟩).1 = (extractService settings ⟨files, []⟩).1 :=
  Run.Alike.fst_eq (fun _ => extractService_alike (SchemaSource.seesSame_refl _ _)) rfl

theorem loadSettings_of_ok {service : Service}
    (h : loadService (.ofString config) service? world = (.ok service, world')) :
    loadSettings config service? world = (.ok service.settings, world') := by
  rw [loadSettings, Run.bind_of_ok (Run.mapError_of_ok h)]
  rfl

section Loaded

variable {loaded : World} {extraction : Extraction}

/-- The settings are loaded first, which leaves only log lines behind. -/
theorem extractService_loaded (hload : loadSettings config service? ⟨files, []⟩ = (.ok settings, loaded)) :
    (extractService settings loaded).1 = (extractService settings ⟨files, []⟩).1 ∧ loaded.files = files := by
  obtain ⟨files', log⟩ := loaded
  cases loadSettings_files hload
  exact ⟨extractService_log settings files log, rfl⟩

theorem Command.extract_of_error {e : ProcessingError}
    (hload : loadSettings config service? ⟨files, []⟩ = (.ok settings, loaded))
    (hextract : (extractService settings ⟨files, []⟩).1 = .error e) :
    ((Command.extract config service?).run templates ⟨files, []⟩).1 = .error (.processing e) := by
  rw [← (extractService_loaded hload).1] at hextract
  have hprocess : processSchema settings loaded = (.error e, (extractService settings loaded).2) :=
    Run.bind_of_error (Prod.ext hextract rfl)
  rw [Command.run, Run.bind_of_ok hload, Run.bind_of_error (Run.mapError_of_error hprocess)]

/-- A service that is processed leaves its clean schema. -/
theorem Command.extract_of_ok {written : FileSystem}
    (hload : loadSettings config service? ⟨files, []⟩ = (.ok settings, loaded))
    (hextract : (extractService settings ⟨files, []⟩).1 = .ok extraction)
    (hwrite : files.write settings.cleanSchemaPath extraction.cleanText.toUTF8 = .ok written) :
    ((Command.extract config service?).run templates ⟨files, []⟩).2.files = written := by
  obtain ⟨hsame, hfiles⟩ := extractService_loaded hload
  rw [← hsame] at hextract
  rw [← hfiles] at hwrite
  obtain ⟨after, hprocess, hafter⟩ := processSchema_of_ok hextract hwrite
  rw [Command.run, Run.bind_of_ok hload, Run.bind_of_ok (Run.mapError_of_ok hprocess)]
  exact hafter

theorem Command.validate_of_ok (hload : loadSettings config service? ⟨files, []⟩ = (.ok settings, loaded))
    (hextract : (extractService settings ⟨files, []⟩).1 = .ok extraction)
    (hvalid : validateSchema extraction.cleanText = .ok ()) :
    ((Command.validate config service?).run templates ⟨files, []⟩).1 = .ok ["Schema is valid."] := by
  rw [← (extractService_loaded hload).1] at hextract
  have hvalidate : validateService settings loaded = (.ok (), (validateService settings loaded).2) :=
    Prod.ext (validateService_eq_ok.mpr ⟨extraction, hextract, hvalid⟩) rfl
  rw [Command.run, Run.bind_of_ok hload, Run.bind_of_ok (Run.mapError_of_ok hvalidate)]
  rfl

end Loaded

/-! ## Errors that are not reported -/

/-- Whether an error is not reported. -/
abbrev CommandError.StopsProgram (e : CommandError) : Prop := e.isReported = false

theorem stopsProgram_settings :
    (fun e => (CommandError.settings e).StopsProgram) = SettingsFileError.IsForeign := by
  funext e
  refine propext ?_
  unfold CommandError.StopsProgram CommandError.isReported SettingsFileError.IsForeign
  rcases e with path | error | fault | ⟨text, error⟩ | error
  · simp
  · simp
  · simp
  · cases error <;> simp
  · cases error <;> simp

theorem stopsProgram_processing :
    (fun e => (CommandError.processing e).StopsProgram) = ProcessingError.IsForeign := by
  funext e
  refine propext ?_
  unfold CommandError.StopsProgram CommandError.isReported ProcessingError.IsForeign
  rcases e with error | error | error | error | error | _
  · simp
  · simp
  · simp
  · cases error <;> simp
  · simp
  · simp

theorem stopsProgram_validity :
    (fun e => (CommandError.validity e).StopsProgram) = ServiceValidityError.IsForeign := by
  funext e
  refine propext ?_
  unfold CommandError.StopsProgram CommandError.isReported ServiceValidityError.IsForeign
  rcases e with error | error
  · simp
  · cases error <;> simp

theorem stopsProgram_placeholder :
    (fun e => (CommandError.placeholder e).StopsProgram) = (· = .unwritable .nullInPath) := by
  funext e
  refine propext ?_
  unfold CommandError.StopsProgram CommandError.isReported
  rcases e with path | error
  · simp
  · cases error <;> simp

/-- What stops a command on files: its configuration, resources that have no text, or, where the schema is to be
validated, a clean schema that cannot be built. -/
inductive Command.Stops (templates : Path) (files : FileSystem) : Command → Prop where
  | configuration {command : Command} {config : String} {service? : Option String}
      (hservice : command.service? = some (config, service?)) (h : ConfigurationStops files (.ofString config)) :
      Stops templates files command
  | resources {config output : String} {service? role? : Option String} {settings : Settings}
      {extraction : Extraction} {written : FileSystem}
      (hload : (loadSettings config service? ⟨files, []⟩).1 = .ok settings)
      (hextract : (extractService settings ⟨files, []⟩).1 = .ok extraction)
      (hwrite : files.write settings.cleanSchemaPath extraction.cleanText.toUTF8 = .ok written)
      (hmake : (written.makeDirectories (Path.ofString output).parent).2 = none)
      (h : HaveNoText (ResolverWiring.resources settings extraction.bindings role? templates)) :
      Stops templates files (.generateResources config service? output role?)
  | clean {config : String} {service? : Option String} {settings : Settings} {extraction : Extraction}
      (hload : (loadSettings config service? ⟨files, []⟩).1 = .ok settings)
      (hextract : (extractService settings ⟨files, []⟩).1 = .ok extraction)
      (h : ¬ IsBuildable extraction.cleanText) : Stops templates files (.validate config service?)

/-- A command on a service stops at its configuration, or with the settings that this gives. -/
theorem loadSettings_bind_failsWith {α : Type} {f : Settings → Run CommandError α} (stops : Settings → Prop)
    (hservice : ∀ text ∈ service?, (Path.ofString text).hasNull = false)
    (hf : ∀ settings log, (f settings).FailsWith CommandError.StopsProgram ⟨files, log⟩ ↔ stops settings) :
    (loadSettings config service? >>= f).FailsWith CommandError.StopsProgram ⟨files, []⟩ ↔
      ConfigurationStops files (.ofString config) ∨
        ∃ settings, (loadSettings config service? ⟨files, []⟩).1 = .ok settings ∧ stops settings := by
  rw [Run.failsWith_bind]
  refine or_congr ?_ ⟨?_, ?_⟩
  · unfold loadSettings
    rw [Run.failsWith_bind_pure, Run.failsWith_mapError, stopsProgram_settings, loadService_failsWith hservice]
  · rintro ⟨settings, ⟨files', log⟩, hload, hrest⟩
    cases loadSettings_files hload
    exact ⟨settings, by rw [hload], (hf settings log).mp hrest⟩
  · rintro ⟨settings, hload, hstops⟩
    obtain ⟨⟨files', log⟩, hbetween⟩ : ∃ between, loadSettings config service? ⟨files, []⟩ = (.ok settings, between) :=
      ⟨_, Prod.ext hload rfl⟩
    cases loadSettings_files hbetween
    exact ⟨settings, _, hbetween, (hf settings log).mpr hstops⟩

/-- The directory of the service is one of the paths of a command. -/
theorem Command.mem_paths_of_service {text : String} (hservice : command.service? = some (config, service?))
    (htext : text ∈ service?) : text ∈ command.paths := by
  have hmem : text ∈ config :: service?.toList := List.mem_cons_of_mem _ (Option.mem_toList.mpr htext)
  cases command with
  | generateConfig output => cases hservice
  | generateResources config output service? role? =>
    cases hservice
    exact List.mem_cons_of_mem _ hmem
  | extract config service? =>
    cases hservice
    exact hmem
  | validate config service? =>
    cases hservice
    exact hmem

theorem Command.extract_failsWith (hservice : ∀ text ∈ service?, (Path.ofString text).hasNull = false) :
    ((Command.extract config service?).run templates).FailsWith CommandError.StopsProgram ⟨files, []⟩ ↔
      (Command.extract config service?).Stops templates files := by
  refine (loadSettings_bind_failsWith (fun _ => False) hservice fun settings log => ?_).trans ⟨?_, ?_⟩
  · rw [Run.failsWith_bind_pure, Run.failsWith_mapError, stopsProgram_processing, iff_false]
    exact not_processSchema_failsWith
  · rintro (hconfig | ⟨-, -, ⟨⟩⟩)
    exact .configuration rfl hconfig
  · rintro ⟨⟨⟩, hconfig⟩
    exact .inl hconfig

/-- A placeholder is written, or its error is reported. -/
theorem Command.not_generateConfig_failsWith {output : String} (houtput : (Path.ofString output).hasNull = false) :
    ¬ ((Command.generateConfig output).run templates).FailsWith CommandError.StopsProgram ⟨files, []⟩ := by
  intro h
  have hwrite := Run.failsWith_bind_pure.mp h
  rw [Run.failsWith_mapError, stopsProgram_placeholder] at hwrite
  exact not_writePlaceholder_failsWith houtput hwrite

theorem Command.generateResources_failsWith {output : String} {role? : Option String}
    (hservice : ∀ text ∈ service?, (Path.ofString text).hasNull = false)
    (houtput : (Path.ofString output).hasNull = false) :
    ((Command.generateResources config service? output role?).run templates).FailsWith CommandError.StopsProgram
        ⟨files, []⟩ ↔
      (Command.generateResources config service? output role?).Stops templates files := by
  refine (loadSettings_bind_failsWith (fun settings => ∃ extraction written,
    (extractService settings ⟨files, []⟩).1 = .ok extraction ∧
      files.write settings.cleanSchemaPath extraction.cleanText.toUTF8 = .ok written ∧
      (written.makeDirectories (Path.ofString output).parent).2 = none ∧
      HaveNoText (resources settings extraction.bindings role? templates)) hservice
    fun settings log => ?_).trans ⟨?_, ?_⟩
  · rw [Run.failsWith_bind_pure, Run.failsWith_mapError, stopsProgram_processing,
      ResolverWiring.generateResources_failsWith houtput, extractService_log]
  · rintro (hconfig | ⟨settings, hload, extraction, written, hextract, hwrite, hmake, htext⟩)
    · exact .configuration rfl hconfig
    · exact .resources hload hextract hwrite hmake htext
  · rintro (⟨⟨⟩, hconfig⟩ | ⟨hload, hextract, hwrite, hmake, htext⟩)
    · exact .inl hconfig
    · exact .inr ⟨_, hload, _, _, hextract, hwrite, hmake, htext⟩

theorem Command.validate_failsWith (hservice : ∀ text ∈ service?, (Path.ofString text).hasNull = false) :
    ((Command.validate config service?).run templates).FailsWith CommandError.StopsProgram ⟨files, []⟩ ↔
      (Command.validate config service?).Stops templates files := by
  refine (loadSettings_bind_failsWith (fun settings => ∃ extraction,
    (extractService settings ⟨files, []⟩).1 = .ok extraction ∧ ¬ IsBuildable extraction.cleanText) hservice
    fun settings log => ?_).trans ⟨?_, ?_⟩
  · rw [Run.failsWith_bind_pure, Run.failsWith_mapError, stopsProgram_validity, validateService_failsWith,
      extractService_log]
  · rintro (hconfig | ⟨settings, hload, extraction, hextract, hbuild⟩)
    · exact .configuration rfl hconfig
    · exact .clean hload hextract hbuild
  · rintro (⟨⟨⟩, hconfig⟩ | _ | ⟨hload, hextract, hbuild⟩)
    · exact .inl hconfig
    · exact .inr ⟨_, hload, _, hextract, hbuild⟩

/-- **Errors that are not reported.** If its paths are such as files can have, a command fails with an error that is
not reported exactly if its configuration or what is made of it stops it. -/
theorem Command.failsWith_iff (hpaths : ∀ path ∈ command.paths, (Path.ofString path).hasNull = false) :
    (command.run templates).FailsWith CommandError.StopsProgram ⟨files, []⟩ ↔ command.Stops templates files := by
  have hservice : ∀ {config service?}, command.service? = some (config, service?) →
      ∀ text ∈ service?, (Path.ofString text).hasNull = false := fun hservice text htext =>
    hpaths text (Command.mem_paths_of_service hservice htext)
  cases command with
  | extract config service? => exact extract_failsWith (hservice rfl)
  | generateConfig output =>
    refine ⟨fun h => absurd h (not_generateConfig_failsWith (hpaths output (List.mem_singleton.mpr rfl))), ?_⟩
    rintro ⟨⟨⟩, -⟩
  | generateResources config service? output role? =>
    exact generateResources_failsWith (hservice rfl) (hpaths output List.mem_cons_self)
  | validate config service? => exact validate_failsWith (hservice rfl)

end ResolverWiring.CommandLine
