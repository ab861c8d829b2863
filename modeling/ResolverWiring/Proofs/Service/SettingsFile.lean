import ResolverWiring.Proofs.Files.Path
import ResolverWiring.Proofs.Results
import ResolverWiring.Proofs.Service.Run
import ResolverWiring.Proofs.Text.Lines
import ResolverWiring.Service.SettingsFile

/-!
# `Proofs.Service.SettingsFile` — settings from a file

The settings in a configuration file belong to the directory of the file, or to the one that is asked for.
Either is resolved, so the path of a service leads to a place without a step back
(`loadService_isResolved`).
-/

namespace ResolverWiring

open Files Text Yaml

variable {world world' : World} {path : Path} {directory? : Option String} {service : Service}

theorem Files.FileSystem.pathExists_of_null {files : FileSystem} {path : Path} (h : path.hasNull = true) :
    files.pathExists path = .ok false := by
  unfold FileSystem.pathExists FileSystem.find FileSystem.status FileSystem.locate
  rw [h]
  rfl

theorem servicePathOf_isResolved {files : FileSystem} {p : Path}
    (hdirectory : ∀ name ∈ files.directory, name.contains '\x00' = false) (hpath : path.hasNull = false)
    (h : servicePathOf files path directory? = .ok p) : p.IsResolved := by
  have hhere : (⟨.single, files.directory⟩ : Path).hasNull = false :=
    List.any_eq_false.mpr fun name hname => by simp [hdirectory name hname]
  unfold servicePathOf at h
  split at h
  · cases h
    exact (Path.isResolved_resolve hhere hpath).parent
  · dsimp only at h
    split at h
    · cases h
    · rename_i hnull
      cases h
      exact Path.isResolved_resolve hhere (eq_false_of_ne_true hnull)

theorem Settings.ofRoot_servicePath {root : Entries} {servicePath : Path} {settings : Settings}
    (h : ofRoot root servicePath = .ok settings) : settings.servicePath = servicePath := by
  obtain ⟨interfaceSection, _, h⟩ := result_bind_eq_ok h
  obtain ⟨interface, _, h⟩ := result_bind_eq_ok h
  obtain ⟨functions, _, h⟩ := result_bind_eq_ok h
  cases h
  rfl

theorem loadService_eq_ok (h : loadService path directory? world = (.ok service, world')) :
    path.hasNull = false ∧ servicePathOf world.files path directory? = .ok service.settings.servicePath := by
  obtain ⟨files, between, hfiles, h⟩ := Run.bind_eq_ok h
  cases hfiles
  obtain ⟨isThere, between, hexists, h⟩ := Run.bind_eq_ok h
  obtain ⟨hexists, rfl⟩ := Run.ofResult_eq_ok hexists
  cases hthere : isThere with
  | false =>
    rw [hthere] at h
    cases h
  | true =>
    have hpath : path.hasNull = false := by
      cases hnull : path.hasNull with
      | false => rfl
      | true =>
        rw [FileSystem.pathExists_of_null hnull, hthere] at hexists
        cases hexists
    rw [hthere] at h
    obtain ⟨bytes, _, hread, hbytes⟩ := Run.bind_eq_ok h
    obtain ⟨_, rfl⟩ := Run.ofResult_eq_ok hread
    obtain ⟨text, _, htext, hloaded⟩ := Run.bind_eq_ok hbytes
    obtain ⟨_, rfl⟩ := Run.ofResult_eq_ok htext
    obtain ⟨value, _, hvalue, hmapping⟩ := Run.bind_eq_ok hloaded
    obtain ⟨_, rfl⟩ := Run.ofResult_eq_ok hvalue
    obtain ⟨root, _, hroot, hplaced⟩ := Run.bind_eq_ok hmapping
    obtain ⟨_, rfl⟩ := Run.ofResult_eq_ok hroot
    obtain ⟨servicePath, _, hplace, hservice⟩ := Run.bind_eq_ok hplaced
    obtain ⟨hservicePath, rfl⟩ := Run.ofResult_eq_ok hplace
    obtain ⟨settings, _, hsettings, hreported⟩ := Run.bind_eq_ok hservice
    obtain ⟨_, _, _, hnamed⟩ := Run.bind_eq_ok hreported
    obtain ⟨_, _, _, hmade⟩ := Run.bind_eq_ok hnamed
    cases hmade
    rw [Settings.ofRoot_servicePath (Run.ofResult_eq_ok hsettings).1]
    exact ⟨hpath, hservicePath⟩

/-- The path of a loaded service is resolved, if the names of the working directory are such as files can
have. -/
theorem loadService_isResolved
    (hdirectory : ∀ name ∈ world.files.directory, name.contains '\x00' = false)
    (h : loadService path directory? world = (.ok service, world')) :
    service.settings.servicePath.IsResolved :=
  servicePathOf_isResolved hdirectory (loadService_eq_ok h).1 (loadService_eq_ok h).2

/-- Loading a service changes nothing. -/
theorem loadService_alike (path : Path) (directory? : Option String) (files : FileSystem) :
    Run.Alike (loadService path directory?) (loadService path directory?) files files := by
  refine .ofFiles (.bind (.ofResult rfl) fun isThere => .ite (.bind (.throw _) fun _ => ?_) ?_)
  all_goals
    refine .bind (.ofResult rfl) fun bytes => .bind (.ofResult rfl) fun text => .bind (.ofResult rfl) fun value =>
      .bind (.ofResult rfl) fun root => .bind (.ofResult rfl) fun servicePath => ?_
    exact .bind (.ofResult rfl) fun settings => .bind (.report _ _) fun _ =>
      .bind (.ofResult rfl) fun name => .pure _

/-! ## Placeholders -/

/-- A placeholder that is not written leaves everything as it is. -/
theorem writePlaceholder_eq_error {e : PlaceholderError}
    (h : writePlaceholder path world = (.error e, world')) : world'.files = world.files := by
  have hfiles : (Run.files : Run PlaceholderError FileSystem) world = (.ok world.files, world) := rfl
  rw [writePlaceholder, Run.bind_of_ok hfiles] at h
  rcases Run.bind_eq_error h with htest | ⟨isThere, between, htest, hrest⟩
  · obtain ⟨-, -, -, hsame⟩ := Run.ofResult_eq_error htest
    rw [hsame]
  · rw [← (Run.ofResult_eq_ok htest).2]
    cases isThere with
    | true =>
      cases hrest
      rfl
    | false =>
      rcases Run.bind_eq_error hrest with hwrite | ⟨u, written, -, hdone⟩
      · obtain ⟨_, hfault, -⟩ := Run.mapError_eq_error hwrite
        rw [(Run.write_eq_error hfault).2]
      · cases hdone

theorem writePlaceholder_of_exists (h : world.files.pathExists path = .ok true) :
    writePlaceholder path world = (.error (.exists (world.files.resolve path)), world) := by
  have hfiles : (Run.files : Run PlaceholderError FileSystem) world = (.ok world.files, world) := rfl
  rw [writePlaceholder, Run.bind_of_ok hfiles, h]
  rfl

/-! ## A configuration text -/

/-- The service that a configuration text describes, seen from a directory. -/
def readServiceText (path servicePath : Path) (text : String) : Except SettingsFileError Service := do
  let value ← (load text).mapError (.malformed text)
  let root ← (Settings.readRoot value).mapError .invalid
  let settings ← (Settings.ofRoot root servicePath).mapError .invalid
  return ⟨path, ← (Settings.readServiceName root).mapError .invalid, settings⟩

/-- What is loaded from a file depends on its text alone, and on the directory of the file. -/
theorem loadService_of_text {text : String} (hexists : world.files.pathExists path = .ok true)
    (hread : world.files.read path = .ok text.toUTF8) (htext : '\r' ∉ text.toList) :
    (loadService path none world).1 = readServiceText path (world.files.resolve path).parent text := by
  have hfiles : (Run.files : Run SettingsFileError FileSystem) world = (.ok world.files, world) := rfl
  rw [loadService, Run.bind_of_ok hfiles, hexists, hread]
  show ((Run.ofResult SettingsFileError.notUtf8 (Utf8.decodeLines text.toUTF8) >>= _) world).1 = _
  rw [decodeLines_toUTF8 htext]
  show ((Run.ofResult (SettingsFileError.malformed text) (load text) >>= _) world).1
    = (load text).mapError (SettingsFileError.malformed text) >>= _
  -- from here on each step is the same on both sides, or stops both
  cases load text with
  | error e => rfl
  | ok value =>
    show ((Run.ofResult SettingsFileError.invalid (Settings.readRoot value) >>= _) world).1
      = (Settings.readRoot value).mapError SettingsFileError.invalid >>= _
    cases Settings.readRoot value with
    | error e => rfl
    | ok root =>
      show ((Run.ofResult SettingsFileError.invalid (Settings.ofRoot root _) >>= _) world).1
        = (Settings.ofRoot root _).mapError SettingsFileError.invalid >>= _
      cases Settings.ofRoot root (world.files.resolve path).parent with
      | error e => rfl
      | ok settings =>
        show ((Run.ofResult SettingsFileError.invalid (Settings.readServiceName root) >>= _) _).1
          = (Settings.readServiceName root).mapError SettingsFileError.invalid >>= _
        cases Settings.readServiceName root <;> rfl

/-- A configuration file and a schema file in the root directory. -/
def serviceFiles (configuration schema : String) : World :=
  ⟨⟨.directory [("serverless.yml", .file configuration.toUTF8), ("s.graphql", .file schema.toUTF8)], []⟩, []⟩

/-- A configuration in the root directory is found by its name. -/
theorem status_of_lookup {entries : List (String × Files.Node)} {node : Files.Node}
    (h : entries.lookup "serverless.yml" = some node) :
    (⟨.directory entries, []⟩ : FileSystem).status ⟨.none, ["serverless.yml"]⟩ = .ok node := by
  have hnull : (⟨.none, ["serverless.yml"]⟩ : Path).hasNull = false := by simp [Path.hasNull]
  have hlocate : (⟨.directory entries, []⟩ : FileSystem).locate ⟨.none, ["serverless.yml"]⟩
      = .ok ["serverless.yml"] := by
    unfold FileSystem.locate
    rw [hnull, if_neg Bool.false_ne_true, if_neg (by decide)]
    rfl
  have hnode : (Files.Node.directory entries).get? ["serverless.yml"] = some node := by
    show (entries.lookup "serverless.yml").bind some = _
    rw [h]
    rfl
  simp only [FileSystem.status, hlocate, bind, Except.bind, hnode]
  rfl

theorem pathExists_of_lookup {entries : List (String × Files.Node)} {node : Files.Node}
    (h : entries.lookup "serverless.yml" = some node) :
    (⟨.directory entries, []⟩ : FileSystem).pathExists ⟨.none, ["serverless.yml"]⟩ = .ok true := by
  unfold FileSystem.pathExists FileSystem.find
  rw [status_of_lookup h]
  rfl

theorem read_of_lookup {entries : List (String × Files.Node)} {bytes : ByteArray}
    (h : entries.lookup "serverless.yml" = some (.file bytes)) :
    (⟨.directory entries, []⟩ : FileSystem).read ⟨.none, ["serverless.yml"]⟩ = .ok bytes := by
  unfold FileSystem.read
  rw [status_of_lookup h]
  rfl

theorem ofString_serverless : Path.ofString "serverless.yml" = ⟨.none, ["serverless.yml"]⟩ := by cbv

theorem pathExists_serviceFiles (configuration schema : String) :
    (serviceFiles configuration schema).files.pathExists ⟨.none, ["serverless.yml"]⟩ = .ok true :=
  pathExists_of_lookup rfl

theorem read_serviceFiles (configuration schema : String) :
    (serviceFiles configuration schema).files.read ⟨.none, ["serverless.yml"]⟩ = .ok configuration.toUTF8 :=
  read_of_lookup rfl

/-- A configuration in the root directory is loaded as its text says, whatever else there is. -/
theorem loadService_of_lookup {configuration : String} {source : SchemaSource} {entries : List (String × Files.Node)}
    (hentry : entries.lookup "serverless.yml" = some (.file configuration.toUTF8))
    (htext : '\r' ∉ configuration.toList)
    (h : (readServiceText ⟨.none, ["serverless.yml"]⟩ ⟨.single, []⟩ configuration).toOption.map
      (fun service => (service.settings.servicePath, service.settings.interface.source))
        = some (⟨.single, []⟩, source)) :
    ∃ service loaded,
      loadService ⟨.none, ["serverless.yml"]⟩ none ⟨⟨.directory entries, []⟩, []⟩ = (.ok service, loaded) ∧
      service.settings.servicePath = ⟨.single, []⟩ ∧ service.settings.interface.source = source := by
  have hload : (loadService ⟨.none, ["serverless.yml"]⟩ none ⟨⟨.directory entries, []⟩, []⟩).1
      = readServiceText ⟨.none, ["serverless.yml"]⟩ ⟨.single, []⟩ configuration :=
    loadService_of_text (pathExists_of_lookup hentry) (read_of_lookup hentry) htext
  cases hservice : readServiceText ⟨.none, ["serverless.yml"]⟩ ⟨.single, []⟩ configuration with
  | error e =>
    rw [hservice] at h
    cases h
  | ok service =>
    rw [hservice] at h
    have hparts := Prod.ext_iff.mp (Option.some.inj h)
    exact ⟨service, _, Prod.ext (hload.trans hservice) rfl, hparts⟩

end ResolverWiring
