import ResolverWiring.Proofs.CommandLine.Command
import ResolverWiring.Proofs.Files.Frame
import ResolverWiring.Proofs.Validation

/-!
# `Proofs.CommandLine.Frame` — the program touches only its own outputs

Each command writes at most two files: the clean schema of its service, and the output that it is given
(`Command.outputs`). A placeholder is only ever written where nothing was; the others may replace a file
(`Command.replaced`). Whatever else happens, and however a command ends, all files and directories stay as they are
(`Command.run_changesOnly`), and so they do over any number of runs of the program (`executeAll_changesOnly`).
-/

namespace ResolverWiring

open Files FileSystem

variable {settings : Settings} {world : World} {path output templates : Path} {role? : Option String}

/-! ## What the parts of a command write -/

theorem processSchema_changesOnly (settings : Settings) (world : World) :
    (processSchema settings).Effect (ChangesOnly [settings.cleanSchemaPath] [settings.cleanSchemaPath]) world := by
  have hrefl := ChangesOnly.refl [settings.cleanSchemaPath] [settings.cleanSchemaPath]
  refine Run.effect_bind ChangesOnly.trans
    (Run.effect_of_alike hrefl fun _ => extractService_alike (SchemaSource.seesSame_refl _ _)) fun extraction found _ => ?_
  refine Run.effect_bind ChangesOnly.trans
    (Run.effect_mapError (Run.effect_write hrefl fun _ => write_changesOnly)) fun _ written _ => ?_
  exact hrefl written.files

theorem writeResources_changesOnly (output : Path) (built : Yaml.Value) (world : World) :
    (writeResources output built).Effect (ChangesOnly [output] [output]) world := by
  have hrefl := ChangesOnly.refl [output] [output]
  refine Run.effect_bind ChangesOnly.trans (Run.effect_mapError (Run.effect_makeDirectories
    ((makeDirectories_grown _ _).changesOnly _ _))) fun _ made _ => ?_
  refine Run.effect_bind ChangesOnly.trans (Run.effect_of_alike hrefl fun _ => .ofResult rfl) fun text printed _ => ?_
  exact Run.effect_mapError (Run.effect_write hrefl fun _ => write_changesOnly)

theorem generateResources_changesOnly (settings : Settings) (output : Path) (role? : Option String) (templates : Path)
    (world : World) : (generateResources settings output role? templates).Effect
      (ChangesOnly [settings.cleanSchemaPath, output] [settings.cleanSchemaPath, output]) world := by
  have hclean : [settings.cleanSchemaPath] ⊆ [settings.cleanSchemaPath, output] := by simp
  have hout : [output] ⊆ [settings.cleanSchemaPath, output] := by simp
  refine Run.effect_bind ChangesOnly.trans ((processSchema_changesOnly settings world).mono hclean hclean)
    fun processed between _ => ?_
  refine Run.effect_bind ChangesOnly.trans (.refl _ _ _) fun _ reported _ => ?_
  refine Run.effect_bind ChangesOnly.trans ((writeResources_changesOnly output _ reported).mono hout hout)
    fun _ written _ => ?_
  exact ChangesOnly.refl _ _ written.files

/-- A path that nothing is found at leads to nothing, if it leads anywhere. -/
theorem contentAt_of_pathExists {files : FileSystem} {place : List String} (hexists : files.pathExists path = .ok false)
    (hlocate : files.locate path = .ok place) : files.contentAt place = none := by
  unfold pathExists find status at hexists
  rw [hlocate] at hexists
  cases hnode : files.root.get? place with
  | none => exact congrArg (Option.map Node.content) hnode
  | some node =>
    simp only [bind, Except.bind, hnode] at hexists
    cases hexists

/-- A placeholder is put where nothing was, or nowhere. -/
theorem writePlaceholder_files (path : Path) (world : World) :
    (writePlaceholder path world).2.files = world.files ∨
      world.files.contentAt (world.files.placeOf path) = none ∧
        world.files.write path placeholder.toUTF8 = .ok (writePlaceholder path world).2.files := by
  cases hrun : writePlaceholder path world with
  | mk result after =>
    cases result with
    | error e => exact .inl (writePlaceholder_eq_error hrun)
    | ok place =>
      refine .inr ?_
      obtain ⟨files, _, hfiles, htested⟩ := Run.bind_eq_ok hrun
      cases hfiles
      -- it is tested whether something is there, and written only where nothing is
      obtain ⟨isThere, _, htest, hrest⟩ := Run.bind_eq_ok htested
      obtain ⟨hexists, rfl⟩ := Run.ofResult_eq_ok htest
      cases isThere with
      | true => cases hrest
      | false =>
        obtain ⟨u, written, hwrite, hdone⟩ := Run.bind_eq_ok hrest
        obtain ⟨files, hfiles, rfl⟩ := Run.write_eq_ok (Run.mapError_eq_ok hwrite)
        cases hdone
        obtain ⟨place, hlocate, -⟩ := write_eq_ok.mp hfiles
        obtain rfl := locate_eq_placeOf hlocate
        exact ⟨contentAt_of_pathExists hexists hlocate, hfiles⟩

theorem writePlaceholder_changesOnly (path : Path) (world : World) :
    (writePlaceholder path).Effect (ChangesOnly [] [path]) world := by
  unfold Run.Effect
  rcases writePlaceholder_files path world with hsame | ⟨hnone, hwrite⟩
  · rw [hsame]
    exact ChangesOnly.refl _ _ _
  · exact write_fresh_changesOnly hwrite hnone

end ResolverWiring

namespace ResolverWiring.CommandLine

open Files FileSystem

variable {templates : Path} {files : FileSystem} {command : Command}

/-! ## Commands -/

/-- The clean schema of the service that a configuration belongs to, if that is a path. -/
def cleanPaths (files : FileSystem) (config : String) (service? : Option String) : List Path :=
  match servicePathOf files (.ofString config) service? with
  | .ok service => [service.join (.ofString cleanSchemaName)]
  | .error _ => []

/-- The paths of the files that a command is there to write. -/
def Command.outputs (files : FileSystem) : Command → List Path
  | .extract config service? => cleanPaths files config service?
  | .generateConfig output => [.ofString output]
  | .generateResources config service? output _ => cleanPaths files config service? ++ [.ofString output]
  | .validate _ _ => []

/-- The outputs of a command that may take the place of a file. A placeholder never does. -/
def Command.replaced (files : FileSystem) : Command → List Path
  | .generateConfig _ => []
  | command => command.outputs files

theorem loadSettings_cleanSchemaPath {world' : World} {config : String} {service? : Option String} {settings : Settings}
    {world : World} (h : loadSettings config service? world = (.ok settings, world')) :
    [settings.cleanSchemaPath] ⊆ cleanPaths world.files config service? := by
  obtain ⟨service, between, hload, hdone⟩ := Run.bind_eq_ok h
  cases hdone
  have hpath := (loadService_eq_ok (Run.mapError_eq_ok hload)).2
  unfold cleanPaths
  rw [hpath]
  exact List.Subset.refl _

/-- A command on a service has the effect of what it does with the settings. -/
theorem loadSettings_bind_effect {α : Type} {f : Settings → Run CommandError α} {replaced made : List Path}
    {world : World} {config : String} {service? : Option String}
    (hf : ∀ settings between, [settings.cleanSchemaPath] ⊆ cleanPaths world.files config service? →
      (f settings).Effect (ChangesOnly replaced made) between) :
    (loadSettings config service? >>= f).Effect (ChangesOnly replaced made) world :=
  Run.effect_bind ChangesOnly.trans (Run.effect_of_alike (ChangesOnly.refl _ _) (loadSettings_alike _ _))
    fun settings between hload => hf settings between (loadSettings_cleanSchemaPath hload)

/-- **A command changes only its outputs**, however it ends. -/
theorem Command.run_changesOnly (templates : Path) (command : Command) (files : FileSystem) :
    (command.run templates).Effect (ChangesOnly (command.replaced files) (command.outputs files)) ⟨files, []⟩ := by
  cases command with
  | extract config service? =>
    refine loadSettings_bind_effect fun settings loaded hclean => ?_
    refine Run.effect_bind ChangesOnly.trans (Run.effect_mapError
      ((processSchema_changesOnly settings loaded).mono hclean hclean)) fun processed between _ => ?_
    exact ChangesOnly.refl _ _ between.files
  | generateConfig output =>
    refine Run.effect_bind ChangesOnly.trans (Run.effect_mapError (writePlaceholder_changesOnly _ _))
      fun path between _ => ?_
    exact ChangesOnly.refl _ _ between.files
  | generateResources config service? output role? =>
    refine loadSettings_bind_effect fun settings loaded hclean => ?_
    have hsubset : [settings.cleanSchemaPath, .ofString output]
        ⊆ Command.outputs files (.generateResources config service? output role?) :=
      List.append_subset.mpr ⟨List.subset_append_of_subset_left _ hclean, List.subset_append_right _ _⟩
    refine Run.effect_bind ChangesOnly.trans (Run.effect_mapError
      ((generateResources_changesOnly settings _ role? templates loaded).mono hsubset hsubset))
      fun generated between _ => ?_
    exact ChangesOnly.refl _ _ between.files
  | validate config service? =>
    exact Run.effect_of_alike (ChangesOnly.refl _ _) (Command.validate_alike templates config service?)

/-- A placeholder is the only thing that comes up, at a place where nothing was. -/
theorem Command.generateConfig_contentAt (templates : Path) (output : String) (files : FileSystem) :
    let after := ((Command.generateConfig output).run templates ⟨files, []⟩).2.files
    after = files ∨ files.contentAt (files.placeOf (.ofString output)) = none ∧ ∀ place,
      after.contentAt place =
        if place = files.placeOf (.ofString output) then some (.file placeholder.toUTF8) else files.contentAt place := by
  have hafter : ((Command.generateConfig output).run templates ⟨files, []⟩).2.files
      = (writePlaceholder (.ofString output) ⟨files, []⟩).2.files := by
    cases hrun : writePlaceholder (.ofString output) ⟨files, []⟩ with
    | mk result after =>
      cases result with
      | ok path => rw [Command.run, Run.bind_of_ok (Run.mapError_of_ok hrun)]; rfl
      | error e => rw [Command.run, Run.bind_of_error (Run.mapError_of_error hrun)]
  dsimp only
  rw [hafter]
  rcases writePlaceholder_files (.ofString output) ⟨files, []⟩ with hsame | ⟨hnone, hwrite⟩
  · exact .inl hsame
  obtain ⟨place, hlocate, hplace, hfiles⟩ := write_eq_ok.mp hwrite
  obtain rfl := locate_eq_placeOf hlocate
  rw [hfiles]
  rcases Node.put_eq_or_get? files.root (files.placeOf (.ofString output)) (.file placeholder.toUTF8) with hsame | hput
  · exact .inl (by rw [hsame])
  refine .inr ⟨hnone, fun other => ?_⟩
  split
  · rename_i heq
    rw [heq]
    exact congrArg (Option.map Node.content) hput
  · rename_i hne
    exact Node.contentAt_put_file files.root _ hplace hne

/-! ## The program -/

/-- The paths among those of a command that an invocation has, on given files. -/
def Invocation.paths (choice : FileSystem → Command → List Path) (files : FileSystem) : Invocation → List Path
  | run _ command => choice files command
  | _ => []

theorem execute_changesOnly (templates : Path) (arguments : List String) (files : FileSystem) :
    ChangesOnly ((Invocation.ofArguments files arguments).paths Command.replaced files)
      ((Invocation.ofArguments files arguments).paths Command.outputs files) files
      (execute templates arguments files).2 := by
  rw [execute]
  cases Invocation.ofArguments files arguments with
  | run verbose command => exact Command.run_changesOnly templates command files
  | _ => exact ChangesOnly.refl _ _ files

/-- The files that are left when the program has been run with several lists of arguments, one after the other. -/
def executeAll (templates : Path) : List (List String) → FileSystem → FileSystem
  | [], files => files
  | arguments :: calls, files => executeAll templates calls (execute templates arguments files).2

/-- The paths that several runs of the program have, each on the files that the ones in front of it have left. -/
def pathsOfAll (choice : FileSystem → Command → List Path) (templates : Path) :
    List (List String) → FileSystem → List Path
  | [], _ => []
  | arguments :: calls, files => (Invocation.ofArguments files arguments).paths choice files
    ++ pathsOfAll choice templates calls (execute templates arguments files).2

/-- The run: each call is one more change, on the files that the ones in front of it have left. -/
theorem executeAll_changes (templates : Path) (calls : List (List String)) (files : FileSystem) :
    ChangesOnly (pathsOfAll Command.replaced templates calls files) (pathsOfAll Command.outputs templates calls files)
      files (executeAll templates calls files) := by
  induction calls generalizing files with
  | nil => exact ChangesOnly.refl _ _ files
  | cons arguments calls ih =>
    have hfirst : ChangesOnly (pathsOfAll Command.replaced templates (arguments :: calls) files)
        (pathsOfAll Command.outputs templates (arguments :: calls) files) files (execute templates arguments files).2 :=
      (execute_changesOnly templates arguments files).mono (List.subset_append_left _ _) (List.subset_append_left _ _)
    exact hfirst.trans ((ih (execute templates arguments files).2).mono (List.subset_append_right _ _)
      (List.subset_append_right _ _))

/-- **The program touches only its own outputs.** However often the program is run, with whatever arguments and
however each run ends, nothing is ever gone, and a file has other bytes only if it is the clean schema of a service that
was to be processed or the output of resources. To validate a service changes nothing, and a placeholder only ever comes
up where nothing was, and leaves all else as it is. -/
theorem executeAll_changesOnly (templates : Path) (calls : List (List String)) (files : FileSystem) :
    ChangesOnly (pathsOfAll Command.replaced templates calls files) (pathsOfAll Command.outputs templates calls files)
      files (executeAll templates calls files) ∧
    (∀ arguments verbose config service?,
      Invocation.ofArguments files arguments = .run verbose (.validate config service?) →
      (execute templates arguments files).2 = files) ∧
    (∀ arguments verbose output,
      Invocation.ofArguments files arguments = .run verbose (.generateConfig output) →
      let after := (execute templates arguments files).2
      after = files ∨ files.contentAt (files.placeOf (.ofString output)) = none ∧ ∀ place, after.contentAt place =
        if place = files.placeOf (.ofString output) then some (.file placeholder.toUTF8)
        else files.contentAt place) := by
  refine ⟨executeAll_changes templates calls files, ?_, ?_⟩
  · intro arguments verbose config service? hinvocation
    rw [execute, hinvocation]
    have hkept := Run.Alike.files_eq (Command.validate_alike templates config service?)
      (show _ = (_, ((Command.validate config service?).run templates ⟨files, []⟩).2) from Prod.ext rfl rfl)
    exact hkept
  · intro arguments verbose output hinvocation
    rw [execute, hinvocation]
    exact Command.generateConfig_contentAt templates output files

/-- What a service yields whose schema has two annotated fields, whatever its clean schema has been so far. -/
theorem extractService_cleanFiles (clean : String) : ∃ settings loaded,
    loadSettings "serverless.yml" none ⟨cleanFiles fileConfiguration annotatedQuery clean, []⟩
      = (.ok settings, loaded) ∧
    settings.servicePath = ⟨.single, []⟩ ∧
    (extractService settings ⟨cleanFiles fileConfiguration annotatedQuery clean, []⟩).1 = .ok queryExtraction := by
  obtain ⟨service, loaded, hload, hpath, hsource⟩ : ∃ service loaded,
      loadService _ none ⟨cleanFiles fileConfiguration annotatedQuery clean, []⟩ = (.ok service, loaded) ∧ _ :=
    loadService_of_fileConfiguration rfl
  rw [← ofString_serverless] at hload
  have hlines : '\r' ∉ annotatedQuery.toList := by
    rw [toList_annotatedQuery, List.mem_append, String.toList_ofList, String.toList_ofList]
    decide
  have htext : (loadSchema service.settings.interface.source
      ⟨cleanFiles fileConfiguration annotatedQuery clean, []⟩).1 = .ok annotatedQuery := by
    rw [hsource]
    exact readSchemaFile_cleanFiles fileConfiguration clean hlines
  refine ⟨service.settings, loaded, loadSettings_of_ok hload, hpath, ?_⟩
  rw [extractService_of_load htext, extract_annotatedQuery]
  rfl

/-- A placeholder in a directory that was empty; and a service with an empty clean schema, which is replaced and then
validated. -/
theorem executeAll_changesOnly_runs :
    let empty : FileSystem := ⟨.directory [], []⟩
    let before := cleanFiles fileConfiguration annotatedQuery ""
    let after := cleanFiles fileConfiguration annotatedQuery queryExtraction.cleanText
    let calls := [["extract", "--config", "serverless.yml"], ["validate", "--config", "serverless.yml"]]
    (let made := (execute ⟨.none, []⟩ ["generate-config"] empty).2
     made = empty ∨ empty.contentAt (empty.placeOf (.ofString "serverless.yml")) = none ∧ ∀ place,
       made.contentAt place = if place = empty.placeOf (.ofString "serverless.yml")
         then some (.file placeholder.toUTF8) else empty.contentAt place) ∧
    executeAll ⟨.none, []⟩ calls before = after ∧
    ChangesOnly [⟨.single, [".serverless_schema.graphql"]⟩] [⟨.single, [".serverless_schema.graphql"]⟩] before after ∧
    (execute ⟨.none, []⟩ ["validate", "--config", "serverless.yml"] after).1.ending.code? = some 0 ∧
    (execute ⟨.none, []⟩ ["validate", "--config", "serverless.yml"] after).2 = after := by
  intro empty before after calls
  have hplaceholder := (executeAll_changesOnly ⟨.none, []⟩ [] empty).2.2 _ _ _
    (Invocation.ofArguments_generateConfig empty)
  -- the first run replaces the clean schema
  obtain ⟨settings, loaded, hload, hpath, hextract⟩ := extractService_cleanFiles ""
  have hwritten : ((Command.extract "serverless.yml" none).run ⟨.none, []⟩ ⟨before, []⟩).2.files = after :=
    Command.extract_of_ok hload hextract (write_cleanFiles hpath _ _ _ _)
  have hextracted : (execute ⟨.none, []⟩ ["extract", "--config", "serverless.yml"] before).2 = after := by
    rw [execute, Invocation.ofArguments_extract]
    exact hwritten
  -- the second run reads the schema once more
  obtain ⟨settings', loaded', hload', -, hextract'⟩ := extractService_cleanFiles queryExtraction.cleanText
  have hvalid : ((Command.validate "serverless.yml" none).run ⟨.none, []⟩ ⟨after, []⟩).1 = .ok ["Schema is valid."] :=
    Command.validate_of_ok hload' hextract' validateSchema_queryExtraction
  have hcode : (execute ⟨.none, []⟩ ["validate", "--config", "serverless.yml"] after).1.ending.code? = some 0 := by
    rw [execute, Invocation.ofArguments_validate]
    show (Outcome.ofResult _ ((Command.validate "serverless.yml" none).run ⟨.none, []⟩ ⟨after, []⟩).1).ending.code? = _
    rw [hvalid]
    rfl
  have hchanges := (executeAll_changesOnly ⟨.none, []⟩ calls before).1
  have hkept := (executeAll_changesOnly ⟨.none, []⟩ calls after).2.1 _ _ _ _ (Invocation.ofArguments_validate after)
  have hall : executeAll ⟨.none, []⟩ calls before = after := by
    rw [executeAll, hextracted, executeAll, hkept, executeAll]
  have hclean : cleanPaths before "serverless.yml" none = [⟨.single, [".serverless_schema.graphql"]⟩] := by
    rw [cleanPaths, ofString_serverless]
    cbv
  have hpaths (choice : FileSystem → Command → List Path)
      (hfirst : choice before (.extract "serverless.yml" none) = cleanPaths before "serverless.yml" none)
      (hsecond : choice after (.validate "serverless.yml" none) = []) :
      pathsOfAll choice ⟨.none, []⟩ calls before = [⟨.single, [".serverless_schema.graphql"]⟩] := by
    rw [pathsOfAll, hextracted, pathsOfAll, Invocation.ofArguments_extract, Invocation.ofArguments_validate]
    show choice before _ ++ (choice after _ ++ []) = _
    rw [hfirst, hsecond, hclean]
    rfl
  rw [hall, hpaths Command.replaced rfl rfl, hpaths Command.outputs rfl rfl] at hchanges
  exact ⟨hplaceholder, hall, hchanges, hcode, hkept⟩

end ResolverWiring.CommandLine
