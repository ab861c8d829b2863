import ResolverWiring.Proofs.Service.CleanSchema

/-!
# `Proofs.Service.Repeat` — processing a service a second time

The first run writes the clean schema next to the service. Where the source of the service does not lead there,
it leads to the same files as before, so the second run finds the same schema and writes the same text
(`processSchema_again`). A source that is a directory above the clean schema collects it as one more fragment.
-/

namespace ResolverWiring

open Files Graphql

variable {settings : Settings} {source : SchemaSource} {world world' : World} {files files' : FileSystem}

/-! ## What a source sees -/

/-- What a source sees is what its path leads to. -/
theorem SchemaSource.seesSame_of_status (h : files.status source.path = files'.status source.path) :
    source.SeesSame files files' := by
  have hfind : files.find source.path = files'.find source.path := by
    rw [FileSystem.find, FileSystem.find, h]
  unfold SeesSame
  cases source.kind with
  | directory =>
    refine ⟨congrArg (Except.map _) hfind, ?_, ?_⟩
    · unfold FileSystem.checkSearch FileSystem.searchedPaths
      rw [h]
    · unfold fragmentFiles FileSystem.filesBelow
      rw [h]
  | file =>
    refine ⟨congrArg (Except.map _) hfind, ?_⟩
    unfold FileSystem.read
    rw [h]

/-- A path that passes a test leads to something. -/
theorem status_of_find {path : Path} {test : Node → Bool}
    (h : (files.find path).map (·.any test) = .ok true) : ∃ node, files.status path = .ok node := by
  unfold FileSystem.find at h
  split at h
  · rename_i node hstatus
    exact ⟨node, hstatus⟩
  · cases h
  · exact absurd (Except.ok.inj h) Bool.false_ne_true

/-- A schema that is loaded comes from something that is there. -/
theorem status_of_loadSchema {text : String} (h : loadSchema source world = (.ok text, world')) :
    ∃ node, world.files.status source.path = .ok node := by
  rw [loadSchema] at h
  cases hkind : source.kind with
  | directory =>
    rw [hkind] at h
    obtain ⟨fragments, _, hcollect, -⟩ := Run.bind_eq_ok h
    obtain ⟨seen, _, hseen, hdirectory⟩ := Run.bind_eq_ok hcollect
    cases hseen
    obtain ⟨isDirectory, _, htest, hrest⟩ := Run.bind_eq_ok hdirectory
    cases isDirectory with
    | false => cases hrest
    | true => exact status_of_find (Run.ofResult_eq_ok htest).1
  | file =>
    rw [hkind] at h
    obtain ⟨seen, _, hseen, hfile⟩ := Run.bind_eq_ok h
    cases hseen
    obtain ⟨isFile, _, htest, hrest⟩ := Run.bind_eq_ok hfile
    cases isFile with
    | false => cases hrest
    | true => exact status_of_find (Run.ofResult_eq_ok htest).1

/-- Writing the clean schema leaves all paths leading where they lead. -/
theorem locate_of_written {path : Path} {place : List String} {text : String}
    (hpath : settings.servicePath.IsResolved)
    (hwrite : files.write settings.cleanSchemaPath text.toUTF8 = .ok files')
    (hlocate : files.locate path = .ok place) : files'.locate path = .ok place := by
  have hkept := (contentAt_of_written hpath hwrite).2
  obtain ⟨-, -, hplace, rfl⟩ := cleanSchema_written hpath hwrite
  obtain ⟨hnull, hlength, hwalk⟩ := FileSystem.locate_eq_ok.mp hlocate
  refine FileSystem.locate_eq_ok.mpr
    ⟨hnull, hlength, FileSystem.walk_of_directories (fun other hother => ?_) hwalk⟩
  have hne : other ≠ settings.cleanPlace := fun heq => hplace (heq ▸ hother)
  exact (hkept other hne).trans hother

/-- Writing the clean schema changes nothing for a path that leads to something else, unless this is a directory
that the clean schema is in. -/
theorem status_of_written {path : Path} {node : Node} {text : String} (hpath : settings.servicePath.IsResolved)
    (hwrite : files.write settings.cleanSchemaPath text.toUTF8 = .ok files')
    (hstatus : files.status path = .ok node)
    (hapart : ∀ place, files.locate path = .ok place → ¬ place <+: settings.cleanPlace) :
    files'.status path = .ok node := by
  obtain ⟨place, hlocate, hnode⟩ := FileSystem.status_eq_ok.mp hstatus
  refine FileSystem.status_eq_ok.mpr ⟨place, locate_of_written hpath hwrite hlocate, ?_⟩
  obtain ⟨-, -, hplace, rfl⟩ := cleanSchema_written hpath hwrite
  -- nothing is below the clean schema, which is no directory
  have hbelow : ¬ settings.cleanPlace <+: place := by
    rintro ⟨below, rfl⟩
    cases hclean : files.root.get? settings.cleanPlace with
    | none =>
      rw [Node.get?_append, hclean] at hnode
      cases hnode
    | some found =>
      cases found with
      | directory entries => exact hplace (Node.contentAt_eq_directory.mpr ⟨entries, hclean⟩)
      | file bytes =>
        have hne : below ≠ [] := by
          rintro rfl
          exact hapart _ hlocate (by rw [List.append_nil])
        rw [Node.get?_below_file hclean hne] at hnode
        cases hnode
  exact (Node.get?_put_of_apart _ _ (hapart place hlocate) hbelow).trans hnode

/-! ## The second run -/

/-- The clean schema that was written can be written again, which changes nothing. -/
theorem write_again {text : String} (hpath : settings.servicePath.IsResolved)
    (hwrite : files.write settings.cleanSchemaPath text.toUTF8 = .ok files') :
    files'.write settings.cleanSchemaPath text.toUTF8 = .ok files' := by
  have hclean := (contentAt_of_written hpath hwrite).1
  obtain ⟨hlocate, -, -, heq⟩ := cleanSchema_written hpath hwrite
  have hput : files' = { files' with root := files'.root.put settings.cleanPlace (.file text.toUTF8) } := by
    have hne : settings.cleanPlace ≠ [] := List.append_ne_nil_of_right_ne_nil _ (List.cons_ne_nil _ _)
    rw [heq, Node.put_put _ _ _ _ hne]
  exact FileSystem.write_eq_ok.mpr
    ⟨settings.cleanPlace, locate_of_written hpath hwrite hlocate, by rw [hclean]; exact nofun, hput⟩

/-- **Processing a service twice.** If a loaded service is processed and its source leads neither to the clean
schema nor to a directory that the clean schema is in, processing it again on the files that the first run left
succeeds with the same result, and leaves these files exactly as they are. -/
theorem processSchema_again {start loaded after : World} {path : Path} {directory? : Option String}
    {service : Service} {processed : ProcessedSchema}
    (hdirectory : ∀ name ∈ start.files.directory, name.contains '\x00' = false)
    (hload : loadService path directory? start = (.ok service, loaded))
    (hrun : processSchema service.settings world = (.ok processed, after))
    (hapart : ∀ place, world.files.locate service.settings.interface.source.path = .ok place →
      ¬ place <+: service.settings.cleanPlace) :
    ∃ again, processSchema service.settings after = (.ok processed, again) ∧ again.files = after.files := by
  have hpath := loadService_isResolved hdirectory hload
  obtain ⟨extraction, hextract, hbindings, hwrite, hplace⟩ := processSchema_eq_ok hrun
  -- the second run sees the same source, so it extracts the same
  have hsees : service.settings.interface.source.SeesSame world.files after.files := by
    obtain ⟨text, between, hloaded, -⟩ := Run.bind_eq_ok (show extractService service.settings world = _ from
      Prod.ext hextract rfl)
    obtain ⟨node, hstatus⟩ := status_of_loadSchema (Run.mapError_eq_ok hloaded)
    exact SchemaSource.seesSame_of_status (hstatus.trans (status_of_written hpath hwrite hstatus hapart).symm)
  have hagain : (extractService service.settings after).1 = .ok extraction :=
    ((extractService_alike hsees) world.log after.log).1.symm.trans hextract
  obtain ⟨again, hsecond, hfiles⟩ := processSchema_of_ok hagain (write_again hpath hwrite)
  rw [← hbindings, ← hplace] at hsecond
  exact ⟨again, hsecond, hfiles⟩

/-! ## Runs on small services -/

/-- The files of `serviceFiles` with a clean schema among them. -/
def cleanFiles (configuration schema clean : String) : FileSystem :=
  ⟨.directory [("serverless.yml", .file configuration.toUTF8), ("s.graphql", .file schema.toUTF8),
    (".serverless_schema.graphql", .file clean.toUTF8)], []⟩

theorem cleanSchemaPath_of_root (hpath : settings.servicePath = ⟨.single, []⟩) :
    settings.cleanSchemaPath = ⟨.single, [".serverless_schema.graphql"]⟩ := by
  rw [cleanSchemaPath_eq, Settings.cleanPlace, hpath]
  rfl

theorem write_serviceFiles (hpath : settings.servicePath = ⟨.single, []⟩) (configuration schema clean : String) :
    (serviceFiles configuration schema).files.write settings.cleanSchemaPath clean.toUTF8
      = .ok (cleanFiles configuration schema clean) := by
  rw [cleanSchemaPath_of_root hpath]
  cbv

theorem write_cleanFiles (hpath : settings.servicePath = ⟨.single, []⟩) (configuration schema clean clean' : String) :
    (cleanFiles configuration schema clean).write settings.cleanSchemaPath clean'.toUTF8
      = .ok (cleanFiles configuration schema clean') := by
  rw [cleanSchemaPath_of_root hpath]
  cbv

theorem readSchemaFile_cleanFiles (configuration clean : String) {schema : String} (h : '\r' ∉ schema.toList) :
    (readSchemaFile ⟨.single, ["s.graphql"]⟩ ⟨cleanFiles configuration schema clean, []⟩).1 = .ok schema := by
  have hfile : (cleanFiles configuration schema clean).isFile ⟨.single, ["s.graphql"]⟩ = .ok true := by cbv
  have hbytes : (cleanFiles configuration schema clean).read ⟨.single, ["s.graphql"]⟩ = .ok schema.toUTF8 := by cbv
  rw [readSchemaFile_of_bytes hfile hbytes, decodeSchema_toUTF8 _ h]

/-- A service with a source of a kind that has been loaded and processed, and whose source is apart from its clean
schema. -/
structure ProcessedApart (kind : SourceKind) (start : World) (service : Service) (processed : ProcessedSchema)
    (after : World) : Prop where
  isOfKind : service.settings.interface.source.kind = kind
  isLoaded : ∃ loaded, loadService ⟨.none, ["serverless.yml"]⟩ none start = (.ok service, loaded)
  run : processSchema service.settings start = (.ok processed, after)
  isApart : ∀ place, start.files.locate service.settings.interface.source.path = .ok place →
    ¬ place <+: service.settings.cleanPlace

theorem extract_annotatedType : extract annotatedType lambdaDirective
    = .ok ⟨[⟨"A", "f", "h"⟩], "type A \x7b\n  f: Int\n\x7d"⟩ := by
  rw [extract, parse_annotatedType]
  cbv

theorem extract_bothTypes : extract bothTypes lambdaDirective
    = .ok ⟨[⟨"A", "f", "h"⟩], "type A \x7b\n  f: Int\n\x7d\n\ntype B \x7b\n  g: Int\n\x7d"⟩ := by
  rw [extract, parse_bothTypes]
  cbv

/-- A service whose schema is a file next to the clean schema. -/
theorem processedApart_file : ∃ service after path,
    ProcessedApart .file (serviceFiles fileConfiguration annotatedType) service ⟨[⟨"A", "f", "h"⟩], path⟩ after := by
  obtain ⟨service, loaded, hload, hpath, hsource⟩ := loadService_fileConfiguration annotatedType
  have hread := readSchemaFile_serviceFiles fileConfiguration (show '\r' ∉ annotatedType.toList by simp [annotatedType])
  have htext : (loadSchema service.settings.interface.source (serviceFiles fileConfiguration annotatedType)).1
      = .ok annotatedType := by
    rw [hsource]
    exact hread
  have hfirst := extractService_of_load htext
  rw [extract_annotatedType] at hfirst
  obtain ⟨after, hrun, -⟩ := processSchema_of_ok hfirst (write_serviceFiles hpath _ _ _)
  refine ⟨service, after, _, by rw [hsource], ⟨loaded, hload⟩, hrun, fun place hlocate => ?_⟩
  have hplace : (serviceFiles fileConfiguration annotatedType).files.locate ⟨.single, ["s.graphql"]⟩
      = .ok ["s.graphql"] := by cbv
  rw [hsource] at hlocate
  rw [← Except.ok.inj (hplace.symm.trans hlocate), Settings.cleanPlace, hpath]
  decide

/-- A configuration whose fragments are in a directory of their own. -/
def partsConfiguration : String := "custom: \x7bappSync: \x7bschemaDir: /parts\x7d\x7d"

/-- The files of a service with two fragments. -/
def partsFiles (first second : String) : World :=
  ⟨⟨.directory [("serverless.yml", .file partsConfiguration.toUTF8),
    ("parts", .directory [("b.graphql", .file second.toUTF8), ("a.graphql", .file first.toUTF8)])], []⟩, []⟩

theorem collectFragments_partsFiles {first second : String} (hfirst : '\r' ∉ first.toList)
    (hsecond : '\r' ∉ second.toList) : (collectFragments ⟨.single, ["parts"]⟩ (partsFiles first second)).1
      = .ok [⟨⟨.single, ["parts", "a.graphql"]⟩, first⟩, ⟨⟨.single, ["parts", "b.graphql"]⟩, second⟩] := by
  have hdirectory : (partsFiles first second).files.isDirectory ⟨.single, ["parts"]⟩ = .ok true := by cbv
  have hsearch : (partsFiles first second).files.checkSearch isFragmentName ⟨.single, ["parts"]⟩ = .ok () := by cbv
  have hfiles : fragmentFiles (partsFiles first second).files ⟨.single, ["parts"]⟩
      = [(["a.graphql"], first.toUTF8), (["b.graphql"], second.toUTF8)] := by cbv
  refine collectFragments_of_texts [(["a.graphql"], first), (["b.graphql"], second)] hdirectory hsearch
    (List.cons_ne_nil _ _) hfiles ?_
  exact List.forall_mem_cons.mpr ⟨hfirst, List.forall_mem_singleton.mpr hsecond⟩

theorem write_partsFiles (hpath : settings.servicePath = ⟨.single, []⟩) (first second clean : String) :
    (partsFiles first second).files.write settings.cleanSchemaPath clean.toUTF8
      = .ok ⟨.directory [("serverless.yml", .file partsConfiguration.toUTF8),
          ("parts", .directory [("b.graphql", .file second.toUTF8), ("a.graphql", .file first.toUTF8)]),
          (".serverless_schema.graphql", .file clean.toUTF8)], []⟩ := by
  rw [cleanSchemaPath_of_root hpath]
  cbv

theorem print_merged_parts :
    (Document.merged [⟨[annotatedDefinition]⟩, ⟨[plainDefinition]⟩]).print = bothTypes := by
  cbv

/-- A service whose fragments are in a directory next to the clean schema. -/
theorem processedApart_directory : ∃ service after path,
    ProcessedApart .directory (partsFiles annotatedType plainType) service ⟨[⟨"A", "f", "h"⟩], path⟩ after := by
  obtain ⟨service, loaded, hload, hpath, hsource⟩ : ∃ service loaded,
      loadService _ none (partsFiles annotatedType plainType) = (.ok service, loaded) ∧ _ ∧
        service.settings.interface.source = ⟨.directory, ⟨.single, ["parts"]⟩⟩ :=
    loadService_of_lookup rfl (by decide +kernel) (by decide +kernel)
  have hkind : service.settings.interface.source.kind = .directory := by rw [hsource]
  have hplace : service.settings.interface.source.path = ⟨.single, ["parts"]⟩ := by rw [hsource]
  have hcollect := collectFragments_partsFiles (show '\r' ∉ annotatedType.toList by simp [annotatedType])
    (show '\r' ∉ plainType.toList by simp [plainType])
  have hfirst := extractService_directory hkind (hplace.symm ▸ hcollect) parseAll_parts
  rw [print_merged_parts, extract_bothTypes] at hfirst
  obtain ⟨after, hrun, -⟩ := processSchema_of_ok hfirst (write_partsFiles hpath _ _ _)
  refine ⟨service, after, _, hkind, ⟨loaded, hload⟩, hrun, fun place hlocate => ?_⟩
  have hthere : (partsFiles annotatedType plainType).files.locate ⟨.single, ["parts"]⟩ = .ok ["parts"] := by cbv
  rw [hplace] at hlocate
  rw [← Except.ok.inj (hthere.symm.trans hlocate), Settings.cleanPlace, hpath]
  decide

/-- Both services are processed twice, with one result. -/
theorem processSchema_again_sources :
    (∃ service processed after, ProcessedApart .file (serviceFiles fileConfiguration annotatedType) service processed
        after ∧ processed.bindings ≠ [] ∧
      ∃ again, processSchema service.settings after = (.ok processed, again) ∧ again.files = after.files) ∧
    ∃ service processed after, ProcessedApart .directory (partsFiles annotatedType "type B \x7b g: Int \x7d") service
        processed after ∧ processed.bindings ≠ [] ∧
      ∃ again, processSchema service.settings after = (.ok processed, again) ∧ again.files = after.files := by
  have hroot : ∀ name ∈ ([] : List String), name.contains '\x00' = false := fun _ h => absurd h List.not_mem_nil
  constructor
  · obtain ⟨service, after, path, hfile⟩ := processedApart_file
    obtain ⟨loaded, hload⟩ := hfile.isLoaded
    exact ⟨service, _, after, hfile, List.cons_ne_nil _ _, processSchema_again hroot hload hfile.run hfile.isApart⟩
  · obtain ⟨service, after, path, hdirectory⟩ := processedApart_directory
    obtain ⟨loaded, hload⟩ := hdirectory.isLoaded
    exact ⟨service, _, after, hdirectory, List.cons_ne_nil _ _,
      processSchema_again hroot hload hdirectory.run hdirectory.isApart⟩

/-- A configuration whose fragments are all schema files of the service. -/
def directoryConfiguration : String := "custom: \x7bappSync: \x7bschemaDir: /\x7d\x7d"

theorem collectFragments_serviceFiles (configuration : String) {schema : String} (h : '\r' ∉ schema.toList) :
    (collectFragments ⟨.single, []⟩ (serviceFiles configuration schema)).1
      = .ok [⟨⟨.single, ["s.graphql"]⟩, schema⟩] := by
  have hdirectory : (serviceFiles configuration schema).files.isDirectory ⟨.single, []⟩ = .ok true := by cbv
  have hsearch : (serviceFiles configuration schema).files.checkSearch isFragmentName ⟨.single, []⟩ = .ok () := by
    cbv
  have hfiles : fragmentFiles (serviceFiles configuration schema).files ⟨.single, []⟩
      = [(["s.graphql"], schema.toUTF8)] := by cbv
  exact collectFragments_of_texts [(["s.graphql"], schema)] hdirectory hsearch (List.cons_ne_nil _ _) hfiles
    (List.forall_mem_singleton.mpr h)

theorem collectFragments_cleanFiles {configuration schema clean : String}
    (hworld : world.files = cleanFiles configuration schema clean) (hclean : '\r' ∉ clean.toList)
    (hschema : '\r' ∉ schema.toList) :
    (collectFragments ⟨.single, []⟩ world).1
      = .ok [⟨⟨.single, [".serverless_schema.graphql"]⟩, clean⟩, ⟨⟨.single, ["s.graphql"]⟩, schema⟩] := by
  have hdirectory : (cleanFiles configuration schema clean).isDirectory ⟨.single, []⟩ = .ok true := by cbv
  have hsearch : (cleanFiles configuration schema clean).checkSearch isFragmentName ⟨.single, []⟩ = .ok () := by cbv
  have hfiles : fragmentFiles (cleanFiles configuration schema clean) ⟨.single, []⟩
      = [([".serverless_schema.graphql"], clean.toUTF8), (["s.graphql"], schema.toUTF8)] := by
    have hbelow : (cleanFiles configuration schema clean).filesBelow ⟨.single, []⟩
        = [(["serverless.yml"], configuration.toUTF8), (["s.graphql"], schema.toUTF8),
          ([".serverless_schema.graphql"], clean.toUTF8)] := by cbv
    have hnames : isFragment ["serverless.yml"] = false ∧ isFragment ["s.graphql"] = true ∧
        isFragment [".serverless_schema.graphql"] = true := by cbv
    have horder : decide (orderKey ["s.graphql"] ≤ orderKey [".serverless_schema.graphql"]) = false := by
      cbv
    rw [fragmentFiles, hbelow]
    simp [hnames, List.mergeSort, horder]
  rw [← hworld] at hdirectory hsearch hfiles
  exact collectFragments_of_texts [([".serverless_schema.graphql"], clean), (["s.graphql"], schema)] hdirectory hsearch
    (List.cons_ne_nil _ _) hfiles (List.forall_mem_cons.mpr ⟨hclean, List.forall_mem_singleton.mpr hschema⟩)

/-- A service whose fragments are below the directory of the service: the second run collects the clean schema of the
first one, so the field is declared twice. -/
theorem processSchema_repeats : ∃ start path directory? service loaded processed after processed' again,
    loadService path directory? start = (.ok service, loaded) ∧
    processSchema service.settings start = (.ok processed, after) ∧
    processSchema service.settings after = (.ok processed', again) ∧
    again.files.contentAt service.settings.cleanPlace ≠ after.files.contentAt service.settings.cleanPlace := by
  let a : Definition := .type none ⟨"A", [], .object [] [⟨none, "f", [], .named "Int" false, []⟩]⟩
  let schema := "type A \x7b f: Int \x7d"
  let clean := "type A \x7b\n  f: Int\n\x7d"
  let doubled := "type A \x7b\n  f: Int\n  f: Int\n\x7d"
  have hschema : Document.parse schema = .ok ⟨[a]⟩ := by cbv
  have hclean : Document.parse clean = .ok ⟨[a]⟩ := by cbv
  have hextract : extract (Document.merged [⟨[a]⟩]).print lambdaDirective = .ok ⟨[], clean⟩ := by cbv
  have hdoubled : extract (Document.merged [⟨[a]⟩, ⟨[a]⟩]).print lambdaDirective = .ok ⟨[], doubled⟩ := by cbv
  have hdescribed : (readServiceText ⟨.none, ["serverless.yml"]⟩ ⟨.single, []⟩ directoryConfiguration).toOption.map
      (fun service => (service.settings.servicePath, service.settings.interface.source))
        = some (⟨.single, []⟩, ⟨.directory, ⟨.single, []⟩⟩) := by decide +kernel
  obtain ⟨service, loaded, hload, hpath, hsource⟩ :
      ∃ service loaded, loadService _ none (serviceFiles directoryConfiguration schema) = (.ok service, loaded) ∧ _ :=
    loadService_of_lookup rfl (by decide +kernel) hdescribed
  have hkind : service.settings.interface.source.kind = .directory := by rw [hsource]
  have hplace : service.settings.interface.source.path = ⟨.single, []⟩ := by rw [hsource]
  -- the first run finds one fragment, the second run the clean schema as well
  have hline : '\r' ∉ schema.toList := by simp [schema]
  have hcollect := collectFragments_serviceFiles directoryConfiguration hline
  have hparts : SchemaFragment.parseAll [⟨⟨.single, ["s.graphql"]⟩, schema⟩] = .ok [⟨[a]⟩] := by
    rw [SchemaFragment.parseAll, List.mapM_cons, SchemaFragment.parse, hschema]
    rfl
  have hfirst := extractService_directory hkind (hplace.symm ▸ hcollect) hparts
  rw [hextract] at hfirst
  obtain ⟨after, hafter, hfiles⟩ := processSchema_of_ok hfirst (write_serviceFiles hpath _ _ _)
  have hcollect' := collectFragments_cleanFiles hfiles (show '\r' ∉ clean.toList by simp [clean]) hline
  have hparts' : SchemaFragment.parseAll [⟨⟨.single, [".serverless_schema.graphql"]⟩, clean⟩,
      ⟨⟨.single, ["s.graphql"]⟩, schema⟩] = .ok [⟨[a]⟩, ⟨[a]⟩] := by
    rw [SchemaFragment.parseAll, List.mapM_cons, SchemaFragment.parse, hclean, List.mapM_cons,
      SchemaFragment.parse, hschema]
    rfl
  have hsecond := extractService_directory hkind (hplace.symm ▸ hcollect') hparts'
  rw [hdoubled] at hsecond
  obtain ⟨again, hagain, hfiles'⟩ := processSchema_of_ok hsecond (hfiles ▸ write_cleanFiles hpath _ _ _ doubled)
  refine ⟨_, _, none, service, loaded, _, after, _, again, hload, hafter, hagain, ?_⟩
  have hne : doubled.toUTF8 ≠ clean.toUTF8 := by decide +kernel
  rw [hfiles, hfiles', Settings.cleanPlace, hpath]
  exact fun heq => hne (Content.file.inj (Option.some.inj heq))

end ResolverWiring
