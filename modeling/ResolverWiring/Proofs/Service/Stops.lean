import ResolverWiring.Proofs.Service.ResourceFile
import ResolverWiring.Service.Validity

/-!
# `Proofs.Service.Stops` — what a service stops at

Loading, processing and validating a service each have errors of their own, and a few that come from below and keep
their form (`IsForeign`). A foreign error comes from what the user has written, so for each action there is a
condition on the files that says exactly when it fails with one: the path or the content of the configuration
(`loadService_failsWith`), the resources (`generateResources_failsWith`) and the clean schema
(`validateService_failsWith`). Processing a schema has no foreign errors (`not_processSchema_failsWith`).

Paths with the character of code zero have a foreign error as well. Those that an action is given are assumed to have
none; the others are resolved, or are that of the source, which is part of the condition.
-/

namespace ResolverWiring

open Files Text Yaml

variable {files : FileSystem} {world world' : World} {path servicePath : Path} {directory? : Option String}
  {root entries : Entries} {settings : Settings}

/-! ## Settings with a path that no file can have -/

theorem bind_eq_error {ε α β : Type} {result : Except ε α} {f : α → Except ε β} {e : ε} :
    (result >>= f) = .error e ↔ result = .error e ∨ ∃ a, result = .ok a ∧ f a = .error e := by
  cases result <;> simp [bind, Except.bind]

namespace Settings

/-- Whether the path of the source that a section names is seen from the service, and is such as no file can
have. -/
def NullInSource (entries : Entries) : Prop :=
  ∃ text, (Path.ofString text).isAbsolute = false ∧ (Path.ofString text).hasNull = true ∧
    (readText (interfaceSetting "schemaDir") (setting? entries "schemaDir") = .ok (some text) ∨
      readText (interfaceSetting "schemaDir") (setting? entries "schemaDir") = .ok none ∧
        readText (interfaceSetting "schema") (setting? entries "schema") = .ok (some text))

theorem readText_ne_null {name : String} {value? : Option Value} : readText name value? ≠ .error .nullInPath := by
  unfold readText
  split
  · exact nofun
  · exact nofun
  · split <;> exact nofun
  · exact nofun

theorem readMappings_ne_null {name : String} {value? : Option Value} :
    readMappings name value? ≠ .error .nullInPath := by
  unfold readMappings
  split
  · exact nofun
  · exact nofun
  · rename_i items
    show items.mapM _ ≠ _
    induction items with
    | nil => exact nofun
    | cons item items ih =>
      rw [List.mapM_cons]
      intro h
      rcases bind_eq_error.mp h with hitem | ⟨mapping, -, hrest⟩
      · split at hitem <;> cases hitem
      · rcases bind_eq_error.mp hrest with hitems | ⟨mappings, -, hdone⟩
        · exact ih hitems
        · cases hdone
  · exact nofun

theorem sourcePath_eq_null {text : String} : sourcePath servicePath text = .error .nullInPath ↔
    (Path.ofString text).isAbsolute = false ∧ (Path.ofString text).hasNull = true := by
  unfold sourcePath
  dsimp only
  cases (Path.ofString text).isAbsolute <;> cases (Path.ofString text).hasNull <;> simp

theorem readSource_eq_null : readSource entries servicePath = .error .nullInPath ↔ NullInSource entries := by
  unfold readSource NullInSource
  rw [bind_eq_error, or_iff_right readText_ne_null]
  cases hdirectory : readText (interfaceSetting "schemaDir") (setting? entries "schemaDir") with
  | error e => simp
  | ok directory? =>
    cases directory? with
    -- a directory goes before a file, whatever the file is
    | some directory =>
      simp [bind_eq_error, sourcePath_eq_null, pure, Except.pure]
    | none =>
      cases hfile : readText (interfaceSetting "schema") (setting? entries "schema") with
      | error e =>
        have hne : e ≠ .nullInPath := fun he => readText_ne_null (he ▸ hfile)
        simp [bind_eq_error, hne]
      | ok file? => cases file? <;> simp [bind_eq_error, sourcePath_eq_null, pure, Except.pure]

theorem readInterface_eq_null : readInterface entries servicePath = .error .nullInPath ↔ NullInSource entries := by
  unfold readInterface
  rw [bind_eq_error, readSource_eq_null]
  refine or_iff_left ?_
  rintro ⟨source, -, hrest⟩
  rcases bind_eq_error.mp hrest with hrole | ⟨role?, -, hrest⟩
  · exact readText_ne_null hrole
  rcases bind_eq_error.mp hrest with hsources | ⟨dataSources, -, hrest⟩
  · exact readMappings_ne_null hsources
  rcases bind_eq_error.mp hrest with htemplates | ⟨mappingTemplates, -, hdone⟩
  · exact readMappings_ne_null htemplates
  · cases hdone

theorem readSection_ne_null : readSection root ≠ .error .nullInPath := by
  unfold readSection
  split
  · split <;> exact nofun
  · exact nofun

theorem readFunctions_ne_null {value? : Option Value} : readFunctions value? ≠ .error .nullInPath := by
  unfold readFunctions
  split
  · exact nofun
  · exact nofun
  · split <;> exact nofun

/-- The settings in the root of a configuration file fail at a path only if it is that of the source. -/
theorem ofRoot_eq_null : ofRoot root servicePath = .error .nullInPath ↔
    ∃ entries, readSection root = .ok entries ∧ NullInSource entries := by
  unfold ofRoot
  rw [bind_eq_error, or_iff_right readSection_ne_null]
  refine exists_congr fun entries => and_congr_right fun _ => ?_
  rw [bind_eq_error, readInterface_eq_null]
  refine or_iff_left ?_
  rintro ⟨interface, -, hrest⟩
  rcases bind_eq_error.mp hrest with hfunctions | ⟨functions, -, hdone⟩
  · exact readFunctions_ne_null hfunctions
  · cases hdone

theorem readRoot_ne_null {value : Value} : readRoot value ≠ .error .nullInPath := by
  unfold readRoot
  split <;> exact nofun

end Settings

/-! ## Configurations -/

/-- Whether loading a configuration stops with an error that is not one of the configuration: reading it, decoding
it, building its scalars, or a path that no file can have. -/
def SettingsFileError.IsForeign : SettingsFileError → Prop
  | .unreadable _ => True
  | .notUtf8 _ => True
  | .malformed _ (.scalar _) => True
  | .invalid .nullInPath => True
  | _ => False

/-- The contents of a configuration file that loading stops at. -/
inductive ContentStops (bytes : ByteArray) : Prop where
  | notUtf8 {fault : Utf8.Fault} (h : Utf8.decodeLines bytes = .error fault)
  | scalar {text : String} {error : ScalarError} (htext : Utf8.decodeLines bytes = .ok text)
      (h : load text = .error (.scalar error))
  | source {text : String} {value : Value} {root entries : Entries} (htext : Utf8.decodeLines bytes = .ok text)
      (hvalue : load text = .ok value) (hroot : Settings.readRoot value = .ok root)
      (hsection : Settings.readSection root = .ok entries) (h : Settings.NullInSource entries)

/-- The paths that loading a configuration stops at: too long ones, those of directories, and those of files with
contents to stop at. -/
inductive ConfigurationStops (files : FileSystem) (path : Path) : Prop where
  | tooLong {place : Path} (h : files.status path = .error (.failed .nameTooLong place))
  | directory {entries : List (String × Files.Node)} (h : files.status path = .ok (.directory entries))
  | content {bytes : ByteArray} (hfile : files.status path = .ok (.file bytes)) (h : ContentStops bytes)

theorem servicePathOf_of_noNull (files : FileSystem) (path : Path)
    (hdirectory : ∀ text ∈ directory?, (Path.ofString text).hasNull = false) :
    ∃ servicePath, servicePathOf files path directory? = .ok servicePath := by
  unfold servicePathOf
  split
  · exact ⟨_, rfl⟩
  · rename_i directory hsome
    dsimp only
    rw [hdirectory directory (Option.eq_some_of_filter_eq_some hsome)]
    exact ⟨_, rfl⟩

/-- The name of the service is read last, and is a text. -/
theorem readService_failsWith : (readService path servicePath root).FailsWith SettingsFileError.IsForeign world ↔
    ∃ entries, Settings.readSection root = .ok entries ∧ Settings.NullInSource entries := by
  have hinvalid (e : SettingsError) : (SettingsFileError.invalid e).IsForeign ↔ e = .nullInPath := by
    cases e <;> simp [SettingsFileError.IsForeign]
  unfold readService
  rw [Run.failsWith_ofResult_bind]
  simp only [hinvalid, exists_eq_right]
  rw [Settings.ofRoot_eq_null]
  refine or_iff_left ?_
  rintro ⟨settings, -, hrest⟩
  rw [Run.failsWith_report_bind, Run.failsWith_ofResult_bind] at hrest
  rcases hrest with ⟨e, he, hforeign⟩ | ⟨name?, -, hdone⟩
  · exact Settings.readText_ne_null ((hinvalid e).mp hforeign ▸ he)
  · exact Run.not_failsWith_pure _ hdone

theorem Files.FileSystem.pathExists_eq_error {e : FileError} (h : files.pathExists path = .error e) :
    ∃ place, files.status path = .error (.failed .nameTooLong place) := by
  unfold FileSystem.pathExists FileSystem.find at h
  split at h
  · cases h
  · rename_i place hstatus
    exact ⟨place, hstatus⟩
  · cases h

theorem Files.FileSystem.pathExists_of_tooLong {place : Path}
    (h : files.status path = .error (.failed .nameTooLong place)) :
    files.pathExists path = .error (.failed .nameTooLong place) := by
  unfold FileSystem.pathExists FileSystem.find
  rw [h]
  rfl

theorem Files.FileSystem.pathExists_of_status {node : Files.Node} (h : files.status path = .ok node) :
    files.pathExists path = .ok true := by
  unfold FileSystem.pathExists FileSystem.find
  rw [h]
  rfl

/-- What is there is a file with these bytes, or a directory. -/
theorem Files.FileSystem.status_of_pathExists (h : files.pathExists path = .ok true) :
    (∃ bytes, files.status path = .ok (.file bytes) ∧ files.read path = .ok bytes) ∨
      ∃ entries, files.status path = .ok (.directory entries) := by
  unfold FileSystem.pathExists FileSystem.find at h
  split at h
  · rename_i node hstatus
    cases node with
    | directory entries => exact .inr ⟨entries, hstatus⟩
    | file bytes =>
      refine .inl ⟨bytes, hstatus, ?_⟩
      rw [FileSystem.read, hstatus]
      rfl
  · cases h
  · cases h

/-- What is loaded from the bytes of a configuration file, step by step. -/
theorem loadContent_failsWith {bytes : ByteArray}
    (hdirectory : ∀ text ∈ directory?, (Path.ofString text).hasNull = false) :
    (do
      let text ← Run.ofResult .notUtf8 (Utf8.decodeLines bytes)
      let value ← Run.ofResult (.malformed text) (load text)
      let root ← Run.ofResult .invalid (Settings.readRoot value)
      readService path (← Run.ofResult .unreadable (servicePathOf files path directory?)) root
        : Run SettingsFileError Service).FailsWith SettingsFileError.IsForeign world ↔ ContentStops bytes := by
  obtain ⟨servicePath, hservicePath⟩ := servicePathOf_of_noNull files path hdirectory
  constructor
  · intro h
    rcases Run.failsWith_ofResult_bind.mp h with ⟨fault, hfault, -⟩ | ⟨text, htext, h⟩
    · exact .notUtf8 hfault
    rcases Run.failsWith_ofResult_bind.mp h with ⟨error, herror, hforeign⟩ | ⟨value, hvalue, h⟩
    · cases error with
      | scalar error => exact .scalar htext herror
      | _ => exact hforeign.elim
    rcases Run.failsWith_ofResult_bind.mp h with ⟨error, herror, hforeign⟩ | ⟨root, hroot, h⟩
    · cases error with
      | nullInPath => exact absurd herror Settings.readRoot_ne_null
      | _ => exact hforeign.elim
    -- the directory of the service has been found
    rcases Run.failsWith_ofResult_bind.mp h with ⟨e, he, -⟩ | ⟨servicePath', -, h⟩
    · cases hservicePath.symm.trans he
    obtain ⟨entries, hsection, hnull⟩ := readService_failsWith.mp h
    exact .source htext hvalue hroot hsection hnull
  · rintro (⟨hfault⟩ | ⟨htext, herror⟩ | ⟨htext, hvalue, hroot, hsection, hnull⟩)
    · exact Run.failsWith_ofResult_bind.mpr (.inl ⟨_, hfault, trivial⟩)
    · exact Run.failsWith_ofResult_bind.mpr (.inr ⟨_, htext,
        Run.failsWith_ofResult_bind.mpr (.inl ⟨_, herror, trivial⟩)⟩)
    · exact Run.failsWith_ofResult_bind.mpr (.inr ⟨_, htext,
        Run.failsWith_ofResult_bind.mpr (.inr ⟨_, hvalue,
          Run.failsWith_ofResult_bind.mpr (.inr ⟨_, hroot,
            Run.failsWith_ofResult_bind.mpr (.inr ⟨_, hservicePath,
              readService_failsWith.mpr ⟨_, hsection, hnull⟩⟩)⟩)⟩)⟩)

/-- **Configurations that loading stops at.** If the directory of the service is a path that files can have, loading
a configuration fails with an error that is not one of the configuration exactly if its path is one to stop at. -/
theorem loadService_failsWith (hdirectory : ∀ text ∈ directory?, (Path.ofString text).hasNull = false) :
    (loadService path directory?).FailsWith SettingsFileError.IsForeign world ↔
      ConfigurationStops world.files path := by
  unfold loadService
  rw [Run.failsWith_files_bind, Run.failsWith_ofResult_bind]
  constructor
  · rintro (⟨e, he, -⟩ | ⟨isThere, hexists, h⟩)
    · obtain ⟨place, hstatus⟩ := FileSystem.pathExists_eq_error he
      exact .tooLong hstatus
    cases isThere with
    | false =>
      -- a file that is not there is an error of the configuration
      obtain ⟨e, he, hforeign⟩ := h
      cases he
      exact hforeign.elim
    | true =>
      obtain ⟨bytes, hstatus, hread⟩ | ⟨entries, hstatus⟩ := FileSystem.status_of_pathExists hexists
      · rcases Run.failsWith_ofResult_bind.mp h with ⟨e, he, -⟩ | ⟨bytes', hbytes, h⟩
        · cases hread.symm.trans he
        · cases hread.symm.trans hbytes
          exact .content hstatus ((loadContent_failsWith hdirectory).mp h)
      · exact .directory hstatus
  · rintro (⟨hstatus⟩ | ⟨hstatus⟩ | ⟨hstatus, hcontent⟩)
    · exact .inl ⟨_, FileSystem.pathExists_of_tooLong hstatus, trivial⟩
    · have hread : world.files.read path = .error (.failed .isDirectory path) := by
        rw [FileSystem.read, hstatus]
        rfl
      exact .inr ⟨true, FileSystem.pathExists_of_status hstatus,
        Run.failsWith_ofResult_bind.mpr (.inl ⟨_, hread, trivial⟩)⟩
    · rename_i bytes
      have hread : world.files.read path = .ok bytes := by
        rw [FileSystem.read, hstatus]
        rfl
      exact .inr ⟨true, FileSystem.pathExists_of_status hstatus,
        Run.failsWith_ofResult_bind.mpr (.inr ⟨bytes, hread, (loadContent_failsWith hdirectory).mpr hcontent⟩)⟩

/-! ## Placeholders -/

/-- A placeholder for a path that files can have is refused for a reason that is one of files. -/
theorem not_writePlaceholder_failsWith (hnull : path.hasNull = false) :
    ¬ (writePlaceholder path).FailsWith (· = .unwritable .nullInPath) world := by
  intro h
  unfold writePlaceholder at h
  rw [Run.failsWith_files_bind] at h
  rcases Run.failsWith_ofResult_bind.mp h with ⟨e, he, hnullInPath⟩ | ⟨isThere, -, h⟩
  · cases hnullInPath
    exact FileSystem.pathExists_ne_null he
  · cases isThere with
    | true =>
      obtain ⟨e, he, hnullInPath⟩ := h
      cases hnullInPath
      cases he
    | false =>
      rcases Run.failsWith_bind.mp h with hwrite | ⟨u, written, -, hdone⟩
      · obtain ⟨e, he, hnullInPath⟩ := Run.failsWith_write.mp (Run.failsWith_mapError.mp hwrite)
        cases hnullInPath
        exact write_ne_null hnull he
      · exact Run.not_failsWith_pure _ hdone

/-! ## Schemas -/

/-- Whether processing stops with an error that is not one of processing. -/
def ProcessingError.IsForeign : ProcessingError → Prop
  | .resourcesUnwritable .nullInPath => True
  | .resourcesUnprintable _ => True
  | .resourcesEndless => True
  | _ => False

theorem extractService_not_isForeign {e : ProcessingError} (h : extractService settings world = (.error e, world')) :
    ¬ e.IsForeign := by
  rcases Run.bind_eq_error h with hload | ⟨text, loaded, -, hextract⟩
  · obtain ⟨fault, -, rfl⟩ := Run.mapError_eq_error hload
    exact id
  · rw [Run.report_then] at hextract
    obtain ⟨fault, -, rfl, -⟩ := Run.ofResult_eq_error hextract
    exact id

/-- Whatever a schema is like, its error is one of processing. -/
theorem not_processSchema_failsWith : ¬ (processSchema settings).FailsWith ProcessingError.IsForeign world := by
  rintro ⟨e, he, hforeign⟩
  obtain ⟨-, hextract | ⟨extraction, fault, -, rfl, -⟩⟩ := processSchema_eq_error (Prod.ext he rfl)
  · exact extractService_not_isForeign (Prod.ext hextract rfl) hforeign
  · exact hforeign

/-! ## Resources -/

/-- Resources that have no text: they hold themselves, or an integer in them is too long. -/
def HaveNoText (built : Value) : Prop :=
  built.isEndless = true ∨ ∃ error, Yaml.print built = .error error

/-- The errors of resources without a text are foreign, and there are no others. -/
theorem resourcesText_isForeign {built : Value} :
    (∃ e, resourcesText built = .error e ∧ e.IsForeign) ↔ HaveNoText built := by
  unfold resourcesText HaveNoText
  by_cases hendless : built.isEndless = true
  · rw [if_pos hendless]
    exact iff_of_true ⟨_, rfl, trivial⟩ (.inl hendless)
  · rw [if_neg hendless, or_iff_right hendless]
    cases Yaml.print built with
    | ok text => exact iff_of_false (by rintro ⟨e, ⟨⟩, -⟩) (by rintro ⟨e, ⟨⟩⟩)
    | error error => exact iff_of_true ⟨_, rfl, trivial⟩ ⟨error, rfl⟩

theorem writeResources_failsWith {output : Path} {built : Value} (hnull : output.hasNull = false) :
    (writeResources output built).FailsWith ProcessingError.IsForeign world ↔
      (world.files.makeDirectories output.parent).2 = none ∧ HaveNoText built := by
  have hforeign (e : FileError) : (ProcessingError.resourcesUnwritable e).IsForeign ↔ e = .nullInPath := by
    cases e <;> simp [ProcessingError.IsForeign]
  unfold writeResources
  rw [Run.failsWith_bind, Run.failsWith_mapError]
  constructor
  · rintro (⟨e, he, hnullInPath⟩ | ⟨u, made, hmake, hrest⟩)
    · have hfault := ((Run.makeDirectories_eq (Prod.ext he rfl)).2 e).mp rfl
      rw [(hforeign e).mp hnullInPath] at hfault
      exact absurd hfault (FileSystem.makeDirectories_ne_null (FileSystem.hasNull_parent hnull))
    · have hmade := (Run.makeDirectories_eq (Run.mapError_eq_ok hmake)).2
      -- the directories are made before the resources are printed
      have hnone : (world.files.makeDirectories output.parent).2 = none :=
        Option.eq_none_iff_forall_ne_some.mpr fun fault hfault => by cases (hmade fault).mpr hfault
      rcases Run.failsWith_ofResult_bind.mp hrest with htext | ⟨text, -, hwrite⟩
      · exact ⟨hnone, resourcesText_isForeign.mp htext⟩
      · obtain ⟨e, he, hnullInPath⟩ := Run.failsWith_write.mp (Run.failsWith_mapError.mp hwrite)
        rw [(hforeign e).mp hnullInPath] at he
        exact absurd he (write_ne_null hnull)
  · rintro ⟨hnone, htext⟩
    refine .inr ?_
    cases hmake : Run.makeDirectories output.parent world with
    | mk result made =>
      cases result with
      | error e =>
        have hfault := ((Run.makeDirectories_eq hmake).2 e).mp rfl
        cases hnone.symm.trans hfault
      | ok u =>
        exact ⟨u, made, Run.mapError_of_ok hmake,
          Run.failsWith_ofResult_bind.mpr (.inl (resourcesText_isForeign.mpr htext))⟩

/-- Generating resources stops at resources that have no text, once the clean schema and the directories are
there. -/
theorem generateResources_failsWith {output : Path} {role? : Option String} {templates : Path}
    (hnull : output.hasNull = false) :
    (generateResources settings output role? templates).FailsWith ProcessingError.IsForeign world ↔
      ∃ extraction written, (extractService settings world).1 = .ok extraction ∧
        world.files.write settings.cleanSchemaPath extraction.cleanText.toUTF8 = .ok written ∧
        (written.makeDirectories output.parent).2 = none ∧
        HaveNoText (resources settings extraction.bindings role? templates) := by
  unfold generateResources
  rw [Run.failsWith_bind, or_iff_right not_processSchema_failsWith]
  constructor
  · rintro ⟨processed, between, hprocess, hrest⟩
    obtain ⟨extraction, hextract, hbindings, hwrite, -⟩ := processSchema_eq_ok hprocess
    rw [Run.failsWith_report_bind, Run.failsWith_bind] at hrest
    rcases hrest with hresources | ⟨u, written, -, hdone⟩
    · rw [hbindings] at hresources
      have hwritten := (writeResources_failsWith hnull).mp hresources
      exact ⟨extraction, between.files, hextract, hwrite, hwritten⟩
    · rw [Run.failsWith_files_bind] at hdone
      exact absurd hdone (Run.not_failsWith_pure _)
  · rintro ⟨extraction, written, hextract, hwrite, hresources⟩
    obtain ⟨between, hprocess, rfl⟩ := processSchema_of_ok hextract hwrite
    refine ⟨_, between, hprocess, ?_⟩
    rw [Run.failsWith_report_bind, Run.failsWith_bind]
    exact .inl ((writeResources_failsWith hnull).mpr hresources)

/-! ## Validity -/

/-- A service is valid if it can be extracted and its clean schema is valid. -/
theorem validateService_eq_ok : (validateService settings world).1 = .ok () ↔
    ∃ extraction, (extractService settings world).1 = .ok extraction ∧
      validateSchema extraction.cleanText = .ok () := by
  constructor
  · intro h
    obtain ⟨extraction, between, hextract, hrun⟩ := Run.bind_eq_ok (Prod.ext h rfl)
    obtain ⟨_, _, hvalid, -⟩ := Run.bind_eq_ok hrun
    exact ⟨extraction, congrArg Prod.fst (Run.mapError_eq_ok hextract), (Run.ofResult_eq_ok hvalid).1⟩
  · rintro ⟨extraction, hextract, hvalid⟩
    have hrun : Run.mapError ServiceValidityError.processing (extractService settings) world
        = (.ok extraction, (extractService settings world).2) := Run.mapError_of_ok (Prod.ext hextract rfl)
    rw [validateService, Run.bind_of_ok hrun, hvalid]
    rfl

/-- Whether validation stops with an error that is not one of validation. -/
def ServiceValidityError.IsForeign : ServiceValidityError → Prop
  | .processing _ => False
  | .invalid (.malformed _) => True
  | .invalid (.unbuildable _ _ _) => True
  | .invalid (.problems _) => False

/-- Whether a schema can be built from a text, so that its problems can be told. -/
def IsBuildable (text : String) : Prop :=
  ∃ document messages, Graphql.Document.parse text = .ok document ∧ document.check = .ok messages

theorem validateSchema_isForeign {text : String} :
    (∃ e, validateSchema text = .error e ∧ (ServiceValidityError.invalid e).IsForeign) ↔ ¬ IsBuildable text := by
  unfold validateSchema IsBuildable
  cases hparse : Graphql.Document.parse text with
  | error fault =>
    simp [Except.mapError, bind, Except.bind, ServiceValidityError.IsForeign]
  | ok document =>
    cases hcheck : document.check with
    | error fault =>
      simp [Except.mapError, bind, Except.bind, ServiceValidityError.IsForeign, hcheck, throw, throwThe,
        MonadExceptOf.throw]
    | ok messages =>
      cases messages <;>
        simp [Except.mapError, bind, Except.bind, ServiceValidityError.IsForeign, hcheck, throw, throwThe,
          MonadExceptOf.throw, pure, Except.pure]

/-- Validating a service stops at a clean schema that cannot be read or built. -/
theorem validateService_failsWith :
    (validateService settings).FailsWith ServiceValidityError.IsForeign world ↔
      ∃ extraction, (extractService settings world).1 = .ok extraction ∧ ¬ IsBuildable extraction.cleanText := by
  unfold validateService
  rw [Run.failsWith_bind, Run.failsWith_mapError, or_iff_right]
  rotate_left
  · rintro ⟨e, -, hforeign⟩
    exact hforeign
  constructor
  · rintro ⟨extraction, between, hextract, hrest⟩
    refine ⟨extraction, by rw [Run.mapError_eq_ok hextract], validateSchema_isForeign.mp ?_⟩
    rcases Run.failsWith_ofResult_bind.mp hrest with hinvalid | ⟨u, -, hdone⟩
    · exact hinvalid
    · obtain ⟨e, he, -⟩ := hdone
      cases he
  · rintro ⟨extraction, hextract, hbuild⟩
    exact ⟨extraction, _, Run.mapError_of_ok (Prod.ext hextract rfl),
      Run.failsWith_ofResult_bind.mpr (.inl (validateSchema_isForeign.mpr hbuild))⟩

end ResolverWiring
