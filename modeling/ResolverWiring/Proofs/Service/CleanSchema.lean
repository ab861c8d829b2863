import Mathlib
import ResolverWiring.Proofs.Files.Tree
import ResolverWiring.Proofs.Service.SettingsFile
import ResolverWiring.Proofs.Service.Source

/-!
# `Proofs.Service.CleanSchema` — processing a schema writes one file, or nothing
-/

namespace ResolverWiring

open Files Graphql

variable {settings : Settings} {source : SchemaSource} {world world' : World} {files files' : FileSystem}

/-! ## Reading a schema -/

/-- Whether a source cannot tell two file systems apart. -/
def SchemaSource.SeesSame (source : SchemaSource) (files files' : FileSystem) : Prop :=
  match source.kind with
  | .directory => files.isDirectory source.path = files'.isDirectory source.path
      ∧ files.checkSearch isFragmentName source.path = files'.checkSearch isFragmentName source.path
      ∧ fragmentFiles files source.path = fragmentFiles files' source.path
  | .file => files.isFile source.path = files'.isFile source.path
      ∧ files.read source.path = files'.read source.path

theorem SchemaSource.seesSame_refl (source : SchemaSource) (files : FileSystem) :
    source.SeesSame files files := by
  unfold SeesSame
  split
  · exact ⟨rfl, rfl, rfl⟩
  · exact ⟨rfl, rfl⟩

theorem collectFragments_alike {directory : Path}
    (hdirectory : files.isDirectory directory = files'.isDirectory directory)
    (hsearch : files.checkSearch isFragmentName directory = files'.checkSearch isFragmentName directory)
    (hfragments : fragmentFiles files directory = fragmentFiles files' directory) :
    Run.Alike (collectFragments directory) (collectFragments directory) files files' := by
  refine .ofFiles (.bind (.ofResult hdirectory) fun isDirectory => .ite (.bind (.throw _) fun _ => ?_) ?_)
  all_goals
    rw [hfragments]
    refine .bind (.ofResult hsearch) fun _ => .ite (.bind (.throw _) fun _ => ?_) ?_
    all_goals exact .bind (.report _ _) fun _ => .ofResult rfl

theorem readSchemaFile_alike {path : Path} (hfile : files.isFile path = files'.isFile path)
    (hread : files.read path = files'.read path) :
    Run.Alike (readSchemaFile path) (readSchemaFile path) files files' := by
  refine .ofFiles (.bind (.ofResult hfile) fun isFile => .ite (.bind (.throw _) fun _ => ?_) ?_)
  all_goals exact .bind (.ofResult hread) fun bytes => .ofResult rfl

theorem loadSchema_alike (h : source.SeesSame files files') :
    Run.Alike (loadSchema source) (loadSchema source) files files' := by
  unfold SchemaSource.SeesSame at h
  unfold loadSchema
  cases hkind : source.kind with
  | directory =>
    rw [hkind] at h
    exact .bind (collectFragments_alike h.1 h.2.1 h.2.2) fun fragments =>
      .bind (.report _ _) fun _ => .ofResult rfl
  | file =>
    rw [hkind] at h
    exact readSchemaFile_alike h.1 h.2

/-- What a service yields depends on what its source sees, and finding it out changes nothing. -/
theorem extractService_alike (h : settings.interface.source.SeesSame files files') :
    Run.Alike (extractService settings) (extractService settings) files files' :=
  .bind (.mapError (loadSchema_alike h)) fun _ => .bind (.report _ _) fun _ => .ofResult rfl

theorem extractService_files {result : Except ProcessingError Extraction}
    (h : extractService settings world = (result, world')) : world'.files = world.files :=
  Run.Alike.files_eq (fun _ => extractService_alike (SchemaSource.seesSame_refl _ _)) h

/-! ## Processing -/

theorem processSchema_eq_ok {processed : ProcessedSchema}
    (h : processSchema settings world = (.ok processed, world')) :
    ∃ extraction, (extractService settings world).1 = .ok extraction ∧
      processed.bindings = extraction.bindings ∧
      world.files.write settings.cleanSchemaPath extraction.cleanText.toUTF8 = .ok world'.files ∧
      processed.path = world'.files.resolve settings.cleanSchemaPath := by
  obtain ⟨extraction, between, hextract, h⟩ := Run.bind_eq_ok h
  obtain ⟨u, written, hstep, h⟩ := Run.bind_eq_ok h
  obtain ⟨after, hwrite, rfl⟩ := Run.write_eq_ok (Run.mapError_eq_ok hstep)
  cases h
  rw [extractService_files hextract] at hwrite
  exact ⟨extraction, by rw [hextract], rfl, hwrite, rfl⟩

theorem processSchema_eq_error {e : ProcessingError}
    (h : processSchema settings world = (.error e, world')) :
    world'.files = world.files ∧ ((extractService settings world).1 = .error e ∨
      ∃ extraction fault, (extractService settings world).1 = .ok extraction ∧ e = .schemaUnwritable fault ∧
        world.files.write settings.cleanSchemaPath extraction.cleanText.toUTF8 = .error fault) := by
  rcases Run.bind_eq_error h with hextract | ⟨extraction, between, hextract, h⟩
  · exact ⟨extractService_files hextract, .inl (by rw [hextract])⟩
  · have hbetween := extractService_files hextract
    rcases Run.bind_eq_error h with hstep | ⟨u, written, _, h⟩
    · obtain ⟨fault, hfault, rfl⟩ := Run.mapError_eq_error hstep
      obtain ⟨hwrite, rfl⟩ := Run.write_eq_error hfault
      rw [hbetween] at hwrite
      exact ⟨hbetween, .inr ⟨extraction, fault, by rw [hextract], rfl, hwrite⟩⟩
    · cases h

theorem processSchema_of_ok {extraction : Extraction} {after : FileSystem}
    (hextract : (extractService settings world).1 = .ok extraction)
    (hwrite : world.files.write settings.cleanSchemaPath extraction.cleanText.toUTF8 = .ok after) :
    ∃ world', processSchema settings world
        = (.ok ⟨extraction.bindings, after.resolve settings.cleanSchemaPath⟩, world')
      ∧ world'.files = after := by
  obtain ⟨between, hbetween⟩ : ∃ between, extractService settings world = (.ok extraction, between) :=
    ⟨_, Prod.ext hextract rfl⟩
  rw [← extractService_files hbetween] at hwrite
  have hstep : Run.mapError ProcessingError.schemaUnwritable
      (Run.write settings.cleanSchemaPath extraction.cleanText) between = (.ok (), _) :=
    Run.mapError_of_ok (Run.write_of_ok hwrite)
  rw [processSchema, Run.bind_of_ok hbetween, Run.bind_of_ok hstep]
  exact ⟨_, rfl, rfl⟩

/-! ## The clean schema -/

/-- The place of the clean schema of a service whose path is resolved. -/
def Settings.cleanPlace (settings : Settings) : List String :=
  settings.servicePath.names ++ [cleanSchemaName]

theorem cleanSchemaPath_eq (settings : Settings) :
    settings.cleanSchemaPath = ⟨settings.servicePath.root, settings.cleanPlace⟩ := by
  have hname : Path.ofString cleanSchemaName = ⟨.none, [cleanSchemaName]⟩ := by cbv
  rw [Settings.cleanSchemaPath, Path.join, hname]
  rfl

/-- The clean schema is written at its place, in a directory, where no directory is. -/
theorem cleanSchema_written {text : String} (hpath : settings.servicePath.IsResolved)
    (h : files.write settings.cleanSchemaPath text.toUTF8 = .ok files') :
    files.locate settings.cleanSchemaPath = .ok settings.cleanPlace ∧
      files.contentAt settings.servicePath.names = some .directory ∧
      files.contentAt settings.cleanPlace ≠ some .directory ∧
      files' = { files with root := files.root.put settings.cleanPlace (.file text.toUTF8) } := by
  obtain ⟨place, hlocate, hplace, rfl⟩ := FileSystem.write_eq_ok.mp h
  obtain ⟨-, -, hwalk⟩ := FileSystem.locate_eq_ok.mp hlocate
  have habsolute : settings.cleanSchemaPath.isAbsolute = true := by
    rw [cleanSchemaPath_eq, hpath.root]
    rfl
  rw [habsolute, if_pos rfl, cleanSchemaPath_eq] at hwalk
  have hforward : ".." ∉ settings.cleanPlace := by
    intro hmem
    rcases List.mem_append.mp hmem with hmem | hmem
    · exact hpath.forward hmem
    · exact absurd (List.mem_singleton.mp hmem) (by decide)
  have hends := FileSystem.walk_eq_append hforward hwalk
  obtain ⟨last, hlast, hdirectory, -⟩ := FileSystem.walk_concat hwalk
  have hservice := FileSystem.walk_eq_append hpath.forward hlast
  rw [List.nil_append] at hends hservice
  subst hends hservice
  exact ⟨hlocate, hdirectory, hplace, rfl⟩

/-- Writing the clean schema puts its bytes at its place, and leaves what is at other places. -/
theorem contentAt_of_written {text : String} (hpath : settings.servicePath.IsResolved)
    (h : files.write settings.cleanSchemaPath text.toUTF8 = .ok files') :
    files'.contentAt settings.cleanPlace = some (.file text.toUTF8) ∧
      ∀ place, place ≠ settings.cleanPlace → files'.contentAt place = files.contentAt place := by
  obtain ⟨-, hdirectory, hplace, rfl⟩ := cleanSchema_written hpath h
  refine ⟨?_, fun place hne => Node.contentAt_put_file _ _ hplace hne⟩
  show Option.map Node.content ((files.root.put settings.cleanPlace _).get? settings.cleanPlace) = _
  rw [Settings.cleanPlace, Node.get?_put _ _ _ _ hdirectory]
  rfl

theorem cleanSchemaPath_noNull (hpath : settings.servicePath.IsResolved) :
    settings.cleanSchemaPath.hasNull = false := by
  rw [cleanSchemaPath_eq]
  refine List.any_eq_false.mpr fun name hname => ?_
  rcases List.mem_append.mp hname with hname | hname
  · exact List.any_eq_false.mp hpath.noNull name hname
  · rw [List.mem_singleton.mp hname]
    simp [cleanSchemaName]

/-! ## Failures -/

/-- Whether an error is reported as one of processing a schema. The others reach the caller as they are: those
of a path that no file can have, of an integer that is too long, and of resources that hold themselves. -/
def ProcessingError.isOfProcessing : ProcessingError → Bool
  | .source (.unreadable .nullInPath) => false
  | .schemaUnwritable .nullInPath => false
  | .resourcesUnwritable .nullInPath => false
  | .resourcesUnprintable _ => false
  | .resourcesEndless => false
  | _ => true

theorem write_ne_null {path : Path} {bytes : ByteArray} (hpath : path.hasNull = false) :
    files.write path bytes ≠ .error .nullInPath := by
  unfold FileSystem.write
  cases hplace : files.locate path with
  | error e => exact fun h => FileSystem.locate_ne_null hpath (by cases h; exact hplace)
  | ok place =>
    simp only [bind, Except.bind]
    split
    · simp
    · simp [pure, Except.pure]

theorem decodeSchema_isOfProcessing {path : Path} {bytes : ByteArray} {e : SourceError}
    (h : decodeSchema path bytes = .error e) : (ProcessingError.source e).isOfProcessing = true := by
  unfold decodeSchema at h
  cases hdecode : Text.Utf8.decodeLines bytes with
  | ok text =>
    rw [hdecode] at h
    cases h
  | error fault =>
    rw [hdecode] at h
    cases h
    rfl

theorem ProcessingError.isOfProcessing_unreadable {fault : FileError} (h : fault ≠ .nullInPath) :
    (ProcessingError.source (.unreadable fault)).isOfProcessing = true := by
  cases fault with
  | nullInPath => exact absurd rfl h
  | failed problem path => rfl

theorem readFragment_isOfProcessing {directory : Path} {file : List String × ByteArray} {e : SourceError}
    (h : readFragment directory file = .error e) : (ProcessingError.source e).isOfProcessing = true := by
  rw [readFragment_eq] at h
  cases hdecode : decodeSchema (directory.join ⟨.none, file.1⟩) file.2 with
  | error e' =>
    rw [hdecode] at h
    cases h
    exact decodeSchema_isOfProcessing hdecode
  | ok text =>
    rw [hdecode] at h
    cases h

theorem collectFragments_isOfProcessing {directory : Path} {e : SourceError}
    (h : (collectFragments directory world).1 = .error e) : (ProcessingError.source e).isOfProcessing = true := by
  rcases collectFragments_cases directory world with ⟨fault, hdirectory, hrun⟩ | ⟨-, hrun⟩ |
    ⟨-, ⟨fault, hsearch, hrun⟩ | ⟨-, ⟨-, hrun⟩ | ⟨-, hrun⟩⟩⟩
  · cases h.symm.trans hrun
    exact ProcessingError.isOfProcessing_unreadable fun hnull => FileSystem.isDirectory_ne_null (hnull ▸ hdirectory)
  · cases h.symm.trans hrun
    rfl
  · cases h.symm.trans hrun
    exact ProcessingError.isOfProcessing_unreadable fun hnull => FileSystem.checkSearch_ne_null (hnull ▸ hsearch)
  · cases h.symm.trans hrun
    rfl
  · -- the error of a list of readings is that of one of them
    obtain ⟨-, file, -, -, -, hfile⟩ := mapM_eq_error.mp (hrun.symm.trans h)
    exact readFragment_isOfProcessing hfile

/-- A path that leads to a file can be read. -/
theorem read_of_isFile {path : Path} (h : files.isFile path = .ok true) :
    ∃ bytes, files.read path = .ok bytes := by
  unfold FileSystem.isFile FileSystem.find at h
  unfold FileSystem.read
  cases hstatus : files.status path with
  | error e =>
    rw [hstatus] at h
    split at h
    · rename_i heq
      cases heq
    · cases h
    · cases h
  | ok node =>
    rw [hstatus] at h
    cases node with
    | file bytes => exact ⟨bytes, rfl⟩
    | directory entries => cases h

theorem readSchemaFile_isOfProcessing {path : Path} {e : SourceError}
    (h : (readSchemaFile path world).1 = .error e) : (ProcessingError.source e).isOfProcessing = true := by
  have hfiles : (Run.files : Run SourceError FileSystem) world = (.ok world.files, world) := rfl
  cases hfile : world.files.isFile path with
  | error fault =>
    rw [readSchemaFile, Run.bind_of_ok hfiles, hfile] at h
    cases h
    exact ProcessingError.isOfProcessing_unreadable fun hnull => FileSystem.isFile_ne_null (hnull ▸ hfile)
  | ok isFile =>
    cases isFile with
    | false =>
      rw [readSchemaFile, Run.bind_of_ok hfiles, hfile] at h
      cases h
      rfl
    | true =>
      obtain ⟨bytes, hbytes⟩ := read_of_isFile hfile
      rw [readSchemaFile_of_bytes hfile hbytes] at h
      exact decodeSchema_isOfProcessing h

theorem loadSchema_isOfProcessing {e : SourceError} (h : (loadSchema source world).1 = .error e) :
    (ProcessingError.source e).isOfProcessing = true := by
  cases hkind : source.kind with
  | file =>
    rw [loadSchema_file hkind] at h
    exact readSchemaFile_isOfProcessing h
  | directory =>
    cases hcollect : (collectFragments source.path world).1 with
    | error e' =>
      have hload : loadSchema source world = (.error e', (collectFragments source.path world).2) := by
        rw [loadSchema, hkind]
        exact Run.bind_of_error (Prod.ext hcollect rfl)
      rw [hload] at h
      cases h
      exact collectFragments_isOfProcessing hcollect
    | ok fragments =>
      rw [loadSchema_directory hkind hcollect] at h
      obtain ⟨error, -, rfl⟩ := mapError_eq_error.mp h
      rfl

/-- The fragments of a directory are merged and printed before anything is extracted. -/
theorem extractService_directory {fragments : List SchemaFragment} {documents : List Document}
    (hkind : settings.interface.source.kind = .directory)
    (hcollect : (collectFragments settings.interface.source.path world).1 = .ok fragments)
    (hparts : SchemaFragment.parseAll fragments = .ok documents) :
    (extractService settings world).1
      = (extract (Document.merged documents).print lambdaDirective).mapError .extraction := by
  refine extractService_of_load ?_
  rw [loadSchema_directory hkind hcollect, mergeFragments, hparts]
  rfl

/-- If the bindings of a service are not found, the error is one of processing. -/
theorem extractService_isOfProcessing {e : ProcessingError} (h : (extractService settings world).1 = .error e) :
    e.isOfProcessing = true := by
  cases hload : (loadSchema settings.interface.source world).1 with
  | error fault =>
    have hfault : (extractService settings world).1 = .error (.source fault) := by
      rw [extractService, Run.bind_of_error (Run.mapError_of_error (Prod.ext hload rfl))]
    cases h.symm.trans hfault
    exact loadSchema_isOfProcessing hload
  | ok text =>
    obtain ⟨fault, -, rfl⟩ := mapError_eq_error.mp ((extractService_of_load hload).symm.trans h)
    rfl

/-! ## All or nothing -/

/-- **Processing a service is all or nothing.** For a service that was loaded, on any files: if processing fails, the
error is one of processing a schema, and the files are as before. If it succeeds, the clean schema holds the clean
text that was extracted along with the bindings, while at every other place there is what there was before. -/
theorem processSchema_all_or_nothing {start loaded : World} {path : Path} {directory? : Option String}
    {service : Service} (hdirectory : ∀ name ∈ start.files.directory, name.contains '\x00' = false)
    (hload : loadService path directory? start = (.ok service, loaded)) (world : World) :
    match processSchema service.settings world with
    | (.error e, after) => e.isOfProcessing = true ∧ after.files = world.files
    | (.ok processed, after) => ∃ extraction, (extractService service.settings world).1 = .ok extraction ∧
        processed.bindings = extraction.bindings ∧
        after.files.contentAt service.settings.cleanPlace = some (.file extraction.cleanText.toUTF8) ∧
        ∀ place, place ≠ service.settings.cleanPlace →
          after.files.contentAt place = world.files.contentAt place := by
  have hpath := loadService_isResolved hdirectory hload
  cases hrun : processSchema service.settings world with
  | mk result after =>
    cases result with
    | error e =>
      obtain ⟨hfiles, hextract | ⟨extraction, fault, -, rfl, hwrite⟩⟩ := processSchema_eq_error hrun
      · exact ⟨extractService_isOfProcessing hextract, hfiles⟩
      · -- what was extracted cannot be written, and the reason is not the form of the path
        refine ⟨?_, hfiles⟩
        cases fault with
        | failed problem path => rfl
        | nullInPath => exact absurd hwrite (write_ne_null (cleanSchemaPath_noNull hpath))
    | ok processed =>
      obtain ⟨extraction, hextract, hbindings, hwrite, -⟩ := processSchema_eq_ok hrun
      exact ⟨extraction, hextract, hbindings, contentAt_of_written hpath hwrite⟩

/-- A configuration that names the schema file. -/
def fileConfiguration : String := "custom: \x7bappSync: \x7bschema: /s.graphql\x7d\x7d"

theorem loadService_of_fileConfiguration {entries : List (String × Files.Node)}
    (hentry : entries.lookup "serverless.yml" = some (.file fileConfiguration.toUTF8)) : ∃ service loaded,
    loadService ⟨.none, ["serverless.yml"]⟩ none ⟨⟨.directory entries, []⟩, []⟩ = (.ok service, loaded) ∧
      service.settings.servicePath = ⟨.single, []⟩ ∧
      service.settings.interface.source = ⟨.file, ⟨.single, ["s.graphql"]⟩⟩ :=
  loadService_of_lookup hentry (by decide +kernel) (by decide +kernel)

theorem loadService_fileConfiguration (schema : String) : ∃ service loaded,
    loadService ⟨.none, ["serverless.yml"]⟩ none (serviceFiles fileConfiguration schema) = (.ok service, loaded) ∧
      service.settings.servicePath = ⟨.single, []⟩ ∧
      service.settings.interface.source = ⟨.file, ⟨.single, ["s.graphql"]⟩⟩ := loadService_of_fileConfiguration rfl

/-- A service whose schema has a field with a handler. -/
theorem processSchema_all_or_nothing_query : ∃ start path directory? service loaded world,
    (∀ name ∈ start.files.directory, name.contains '\x00' = false) ∧
    loadService path directory? start = (.ok service, loaded) ∧
    match processSchema service.settings world with
    | (.error e, after) => e.isOfProcessing = true ∧ after.files = world.files
    | (.ok processed, after) => ∃ extraction, (extractService service.settings world).1 = .ok extraction ∧
        processed.bindings = extraction.bindings ∧
        after.files.contentAt service.settings.cleanPlace = some (.file extraction.cleanText.toUTF8) ∧
        ∀ place, place ≠ service.settings.cleanPlace →
          after.files.contentAt place = world.files.contentAt place := by
  let start := serviceFiles fileConfiguration "type Query \x7b a: Int @AWSLambda(handler: \"h\") \x7d"
  obtain ⟨service, loaded, hload, -⟩ : ∃ service loaded, loadService _ _ start = (.ok service, loaded) ∧ _ :=
    loadService_fileConfiguration _
  have hdirectory : ∀ name ∈ ([] : List String), name.contains '\x00' = false :=
    fun _ h => absurd h List.not_mem_nil
  exact ⟨start, _, none, service, loaded, start, hdirectory, hload,
    processSchema_all_or_nothing hdirectory hload start⟩

theorem readSchemaFile_serviceFiles (configuration : String) {schema : String} (h : '\r' ∉ schema.toList) :
    (readSchemaFile ⟨.single, ["s.graphql"]⟩ (serviceFiles configuration schema)).1 = .ok schema := by
  have hfile : (serviceFiles configuration schema).files.isFile ⟨.single, ["s.graphql"]⟩ = .ok true := by
    cbv
  have hbytes : (serviceFiles configuration schema).files.read ⟨.single, ["s.graphql"]⟩
      = .ok schema.toUTF8 := by cbv
  rw [readSchemaFile_of_bytes hfile hbytes, decodeSchema_toUTF8 _ h]

end ResolverWiring
