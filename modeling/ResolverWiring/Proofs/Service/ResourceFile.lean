import ResolverWiring.Proofs.Files.Directories
import ResolverWiring.Proofs.Service.Repeat
import ResolverWiring.Service.ResourceFile

/-!
# `Proofs.Service.ResourceFile` — what a failure to generate resources leaves behind

Generating resources writes the clean schema, makes the directories that lead to the output and writes the output,
in this order, and takes nothing back. If the schema cannot be processed, nothing has changed. If anything fails
later, the clean schema has been written and directories may have come up on the way to the output, and nothing else
has changed (`generateResources_failed`); so the files are as before exactly if the clean schema was there already
and no directory has come up.
-/

namespace ResolverWiring

open Files

variable {settings : Settings} {world world' : World} {output : Path} {role? : Option String} {templates : Path}

/-! ## Taking a failure apart -/

/-- A failure to write resources leaves the directories that were made for them. -/
theorem writeResources_eq_error {resources : Yaml.Value} {e : ProcessingError}
    (h : writeResources output resources world = (.error e, world')) :
    world'.files = (world.files.makeDirectories output.parent).1 := by
  unfold writeResources at h
  rcases Run.bind_eq_error h with hmake | ⟨u, made, hmake, hrest⟩
  · obtain ⟨fault, hfault, -⟩ := Run.mapError_eq_error hmake
    exact (Run.makeDirectories_eq hfault).1
  · have hmade := (Run.makeDirectories_eq (Run.mapError_eq_ok hmake)).1
    rcases Run.bind_eq_error hrest with hprint | ⟨text, printed, hprint, hwrite⟩
    · obtain ⟨_, -, -, hsame⟩ := Run.ofResult_eq_error hprint
      rw [hsame, hmade]
    · obtain ⟨_, hfault, -⟩ := Run.mapError_eq_error hwrite
      rw [(Run.write_eq_error hfault).2, (Run.ofResult_eq_ok hprint).2, hmade]

theorem generateResources_eq_error {e : ProcessingError}
    (h : generateResources settings output role? templates world = (.error e, world')) :
    processSchema settings world = (.error e, world') ∨
      ∃ processed between, processSchema settings world = (.ok processed, between) ∧
        world'.files = (between.files.makeDirectories output.parent).1 := by
  unfold generateResources at h
  rcases Run.bind_eq_error h with hprocess | ⟨processed, between, hprocess, hrest⟩
  · exact .inl hprocess
  · refine .inr ⟨processed, between, hprocess, ?_⟩
    -- the report in between has changed the log only
    rw [Run.report_then] at hrest
    rcases Run.bind_eq_error hrest with hwrite | ⟨u, written, -, hdone⟩
    · have hmade := writeResources_eq_error hwrite
      exact hmade
    · cases hdone

/-! ## What is left -/

theorem contentAt_eq_file {files : FileSystem} {place : List String} {bytes : ByteArray}
    (h : files.contentAt place = some (.file bytes)) : files.root.get? place = some (.file bytes) := by
  obtain ⟨node, hnode, hcontent⟩ := Option.map_eq_some_iff.mp h
  cases node with
  | file bytes' =>
    cases hcontent
    exact hnode
  | directory entries => cases hcontent

/-- **What a failure leaves behind.** When resources for a loaded service cannot be generated, either the schema
could not be processed, and nothing has changed, or the clean schema has been written. In that case nothing is gone,
directories on the way to the output are all that may have come up besides, and the files are as before exactly
if the clean schema was there as it is now and no directory has come up. -/
theorem generateResources_failed {start loaded after : World} {path : Path} {directory? : Option String}
    {service : Service} {e : ProcessingError}
    (hdirectory : ∀ name ∈ start.files.directory, name.contains '\x00' = false)
    (hload : loadService path directory? start = (.ok service, loaded))
    (h : generateResources service.settings output role? templates world = (.error e, after)) :
    match (processSchema service.settings world).1 with
    | .error cause => cause = e ∧ after.files = world.files
    | .ok _ => ∃ extraction, (extractService service.settings world).1 = .ok extraction ∧
        after.files.contentAt service.settings.cleanPlace = some (.file extraction.cleanText.toUTF8) ∧
        (∀ place, place ≠ service.settings.cleanPlace →
          after.files.contentAt place = world.files.contentAt place ∨
          world.files.contentAt place = none ∧ after.files.contentAt place = some .directory ∧
            after.files.IsOnTheWay output.parent place) ∧
        (after.files = world.files ↔
          world.files.contentAt service.settings.cleanPlace = some (.file extraction.cleanText.toUTF8) ∧
          ∀ place, after.files.contentAt place = some .directory →
            world.files.contentAt place = some .directory) := by
  have hpath := loadService_isResolved hdirectory hload
  rcases generateResources_eq_error h with hprocess | ⟨processed, between, hprocess, hafter⟩
  · rw [hprocess]
    exact ⟨rfl, (processSchema_eq_error hprocess).1⟩
  · rw [hprocess]
    obtain ⟨extraction, hextract, -, hwrite, -⟩ := processSchema_eq_ok hprocess
    obtain ⟨hclean, hothers⟩ := contentAt_of_written hpath hwrite
    have hgrown := FileSystem.makeDirectories_grown between.files output.parent
    rw [← hafter] at hgrown
    refine ⟨extraction, hextract, hgrown.kept _ _ hclean, fun place hplace => ?_, fun hsame => ?_, ?_⟩
    · rw [← hothers place hplace]
      cases hcontent : between.files.contentAt place with
      | some content => exact .inl (hgrown.kept place content hcontent)
      | none => exact (hgrown.added place hcontent).imp_right fun hadded => ⟨rfl, hadded⟩
    · rw [hsame] at hgrown
      exact ⟨hgrown.kept _ _ hclean, fun _ hthere => hsame ▸ hthere⟩
    · rintro ⟨hbefore, hnew⟩
      -- the clean schema was put where it was, and no directory was made
      have hwritten : between.files = world.files := by
        rw [(cleanSchema_written hpath hwrite).2.2.2, Node.put_of_get? (contentAt_eq_file hbefore)]
      rw [hgrown.same (by rwa [hwritten]), hwritten]

/-! ## A service whose output is blocked -/

/-- Directories that cannot be made stop a run behind the clean schema. -/
theorem generateResources_of_fault {processed : ProcessedSchema} {between : World} {changed : FileSystem}
    {fault : FileError} (hprocess : processSchema settings world = (.ok processed, between))
    (hmake : between.files.makeDirectories output.parent = (changed, some fault)) :
    ∃ after, generateResources settings output role? templates world = (.error (.resourcesUnwritable fault), after) ∧
      after.files = changed := by
  have hwrite : ∀ (resources : Yaml.Value) (log : List LogEntry),
      writeResources output resources ⟨between.files, log⟩
        = (.error (.resourcesUnwritable fault), ⟨changed, log⟩) := fun resources log =>
    Run.bind_of_error (Run.mapError_of_error (Run.makeDirectories_of_fault hmake))
  rw [generateResources, Run.bind_of_ok hprocess, Run.report_then, Run.bind_of_error (hwrite _ _)]
  exact ⟨_, rfl, rfl⟩

/-- A service whose output would have to be made below its schema file. -/
theorem generateResources_below_file : ∃ service loaded e after,
    loadService ⟨.none, ["serverless.yml"]⟩ none (serviceFiles fileConfiguration "type A") = (.ok service, loaded) ∧
    service.settings.servicePath = ⟨.single, []⟩ ∧
    generateResources service.settings ⟨.single, ["s.graphql", "x", "out.yml"]⟩ none ⟨.none, []⟩
      (serviceFiles fileConfiguration "type A") = (.error e, after) ∧
    after.files = cleanFiles fileConfiguration "type A" "type A" := by
  obtain ⟨service, loaded, hload, hpath, hsource⟩ := loadService_fileConfiguration "type A"
  have hread := readSchemaFile_serviceFiles fileConfiguration (show '\r' ∉ "type A".toList by simp)
  have htext : (loadSchema service.settings.interface.source (serviceFiles fileConfiguration "type A")).1
      = .ok "type A" := by
    rw [hsource]
    exact hread
  have hextract : extract "type A" lambdaDirective = .ok ⟨[], "type A"⟩ := by cbv
  have hfirst := extractService_of_load htext
  rw [hextract] at hfirst
  obtain ⟨between, hprocess, hbetween⟩ := processSchema_of_ok hfirst (write_serviceFiles hpath _ _ _)
  have hmake : (cleanFiles fileConfiguration "type A" "type A").makeDirectories
      (Path.parent ⟨.single, ["s.graphql", "x", "out.yml"]⟩) = (cleanFiles fileConfiguration "type A" "type A",
        some (.failed .notDirectory ⟨.single, ["s.graphql", "x"]⟩)) := by cbv
  rw [← hbetween] at hmake
  obtain ⟨after, hrun, hafter⟩ := generateResources_of_fault hprocess hmake
  exact ⟨service, loaded, _, after, hload, hpath, hrun, hafter.trans hbetween⟩

theorem generateResources_failed_below_file :
    ∃ (start world after : World) (path output templates : Path) (directory? role? : Option String)
      (service : Service) (loaded : World) (e : ProcessingError),
    (∀ name ∈ start.files.directory, name.contains '\x00' = false) ∧
    loadService path directory? start = (.ok service, loaded) ∧
    generateResources service.settings output role? templates world = (.error e, after) ∧
    match (processSchema service.settings world).1 with
    | .error cause => cause = e ∧ after.files = world.files
    | .ok _ => ∃ extraction, (extractService service.settings world).1 = .ok extraction ∧
        after.files.contentAt service.settings.cleanPlace = some (.file extraction.cleanText.toUTF8) ∧
        (∀ place, place ≠ service.settings.cleanPlace →
          after.files.contentAt place = world.files.contentAt place ∨
          world.files.contentAt place = none ∧ after.files.contentAt place = some .directory ∧
            after.files.IsOnTheWay output.parent place) ∧
        (after.files = world.files ↔
          world.files.contentAt service.settings.cleanPlace = some (.file extraction.cleanText.toUTF8) ∧
          ∀ place, after.files.contentAt place = some .directory →
            world.files.contentAt place = some .directory) := by
  have hdirectory : ∀ name ∈ ([] : List String), name.contains '\x00' = false :=
    fun _ h => absurd h List.not_mem_nil
  obtain ⟨service, loaded, e, after, hload, -, hrun, -⟩ := generateResources_below_file
  exact ⟨_, _, after, _, _, _, none, none, service, loaded, e, hdirectory, hload, hrun,
    generateResources_failed hdirectory hload hrun⟩

/-- A failure that leaves a clean schema where none was. -/
theorem generateResources_leaves_clean : ∃ start loaded path directory? service output role? templates e after,
    loadService path directory? start = (.ok service, loaded) ∧
    generateResources service.settings output role? templates start = (.error e, after) ∧
    start.files.contentAt service.settings.cleanPlace = none ∧
    after.files.contentAt service.settings.cleanPlace = some (.file "type A".toUTF8) := by
  obtain ⟨service, loaded, e, after, hload, hpath, hrun, hafter⟩ := generateResources_below_file
  refine ⟨_, loaded, _, none, service, _, none, _, e, after, hload, hrun, ?_, ?_⟩
  · rw [Settings.cleanPlace, hpath]
    rfl
  · rw [hafter, Settings.cleanPlace, hpath]
    rfl

end ResolverWiring
