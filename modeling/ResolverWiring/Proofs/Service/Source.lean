import Mathlib
import ResolverWiring.Proofs.Extract
import ResolverWiring.Proofs.Merge
import ResolverWiring.Proofs.Results
import ResolverWiring.Proofs.Service.Run
import ResolverWiring.Service.CleanSchema

/-!
# `Proofs.Service.Source` — a schema in one file, and the same schema cut into files

A schema that is cut into the files of a directory is merged and printed before it is read again. Merging
does nothing to it if its object types have different names (`mergeDefinitions_of_nodup`), so what is read is the
print of its document, and the round trip decides whether this makes a difference
(`outcome_directory_eq_iff`).
-/

namespace ResolverWiring

open Graphql Files Text

variable {settings : Settings} {world world' : World} {text : String}

/-! ## Reading files -/

/-- A file that holds a text is read as this text. -/
theorem decodeSchema_toUTF8 (path : Path) (h : '\r' ∉ text.toList) :
    decodeSchema path text.toUTF8 = .ok text := by
  rw [decodeSchema, decodeLines_toUTF8 h]
  rfl

theorem readSchemaFile_of_bytes {path : Path} {bytes : ByteArray}
    (hfile : world.files.isFile path = .ok true) (hbytes : world.files.read path = .ok bytes) :
    (readSchemaFile path world).1 = decodeSchema path bytes := by
  have hfiles : (Run.files : Run SourceError FileSystem) world = (.ok world.files, world) := rfl
  rw [readSchemaFile, Run.bind_of_ok hfiles, hfile, hbytes]
  show (Run.ofResult id (decodeSchema path bytes) world).1 = _
  rw [Run.ofResult_fst]
  cases decodeSchema path bytes <;> rfl

/-- A fragment, from the names that lead to it and its bytes. -/
def readFragment (directory : Path) (file : List String × ByteArray) :
    Except SourceError SchemaFragment := do
  let path := directory.join ⟨.none, file.1⟩
  return ⟨path, ← decodeSchema path file.2⟩

theorem readFragment_eq (directory : Path) (file : List String × ByteArray) : readFragment directory file
    = (decodeSchema (directory.join ⟨.none, file.1⟩) file.2).map (SchemaFragment.mk (directory.join ⟨.none, file.1⟩)) := by
  show (decodeSchema (directory.join ⟨.none, file.1⟩) file.2 >>= _) = _
  cases decodeSchema (directory.join ⟨.none, file.1⟩) file.2 <;> rfl

/-- What collecting fragments gives, decided by the directory, by what the search looks at, and by the files that it
finds. -/
theorem collectFragments_fst (directory : Path) (world : World) :
    (collectFragments directory world).1
      = (world.files.isDirectory directory).mapError .unreadable >>= fun isDirectory =>
        if isDirectory then
          (world.files.checkSearch isFragmentName directory).mapError .unreadable >>= fun _ =>
            if (fragmentFiles world.files directory).isEmpty then .error (.noFragments directory)
            else (fragmentFiles world.files directory).mapM (readFragment directory)
        else .error (.directoryNotFound directory) := by
  have hfiles : (Run.files : Run SourceError FileSystem) world = (.ok world.files, world) := rfl
  rw [collectFragments, Run.bind_of_ok hfiles]
  cases world.files.isDirectory directory with
  | error e => rfl
  | ok isDirectory =>
    cases isDirectory with
    | false => rfl
    | true =>
      cases hsearch : world.files.checkSearch isFragmentName directory with
      | error e => rfl
      | ok u =>
        show ((if (fragmentFiles world.files directory).isEmpty = true then _ else (do
          Run.report _
          Run.ofResult id ((fragmentFiles world.files directory).mapM (readFragment directory)))
            : Run SourceError (List SchemaFragment)) world).1 = (if _ then _ else _)
        cases (fragmentFiles world.files directory).isEmpty with
        | true => rfl
        | false =>
          rw [if_neg Bool.false_ne_true, if_neg Bool.false_ne_true, Run.report_then, Run.ofResult_fst]
          cases (fragmentFiles world.files directory).mapM (readFragment directory) <;> rfl

/-- What becomes of collecting fragments. -/
theorem collectFragments_cases (directory : Path) (world : World) :
    (∃ e, world.files.isDirectory directory = .error e ∧ (collectFragments directory world).1 = .error (.unreadable e)) ∨
    (world.files.isDirectory directory = .ok false ∧
      (collectFragments directory world).1 = .error (.directoryNotFound directory)) ∨
    world.files.isDirectory directory = .ok true ∧
      ((∃ e, world.files.checkSearch isFragmentName directory = .error e ∧
          (collectFragments directory world).1 = .error (.unreadable e)) ∨
        world.files.checkSearch isFragmentName directory = .ok () ∧
          (fragmentFiles world.files directory = [] ∧
              (collectFragments directory world).1 = .error (.noFragments directory) ∨
            fragmentFiles world.files directory ≠ [] ∧ (collectFragments directory world).1
              = (fragmentFiles world.files directory).mapM (readFragment directory))) := by
  rw [collectFragments_fst]
  cases world.files.isDirectory directory with
  | error e => exact .inl ⟨e, rfl, rfl⟩
  | ok isDirectory =>
    cases isDirectory with
    | false => exact .inr (.inl ⟨rfl, rfl⟩)
    | true =>
      refine .inr (.inr ⟨rfl, ?_⟩)
      cases world.files.checkSearch isFragmentName directory with
      | error e => exact .inl ⟨e, rfl, rfl⟩
      | ok u =>
        refine .inr ⟨rfl, ?_⟩
        cases fragmentFiles world.files directory with
        | nil => exact .inl ⟨rfl, rfl⟩
        | cons file others => exact .inr ⟨List.cons_ne_nil file others, rfl⟩

theorem collectFragments_of_files {directory : Path} {fragments : List SchemaFragment}
    (hdirectory : world.files.isDirectory directory = .ok true)
    (hsearch : world.files.checkSearch isFragmentName directory = .ok ())
    (hne : fragmentFiles world.files directory ≠ [])
    (hread : (fragmentFiles world.files directory).mapM (readFragment directory) = .ok fragments) :
    (collectFragments directory world).1 = .ok fragments := by
  have hfound : (fragmentFiles world.files directory).isEmpty = false := List.isEmpty_eq_false_iff.mpr hne
  rw [collectFragments_fst, hdirectory, hsearch, hfound, ← hread]
  rfl

theorem readFragment_toUTF8 (directory : Path) (names : List String) {text : String} (h : '\r' ∉ text.toList) :
    readFragment directory (names, text.toUTF8) = .ok ⟨directory.join ⟨.none, names⟩, text⟩ := by
  show (decodeSchema (directory.join ⟨.none, names⟩) text.toUTF8 >>= _) = _
  rw [decodeSchema_toUTF8 _ h]
  rfl

/-- Fragments that are texts are collected as they are. -/
theorem collectFragments_of_texts {directory : Path} (texts : List (List String × String))
    (hdirectory : world.files.isDirectory directory = .ok true)
    (hsearch : world.files.checkSearch isFragmentName directory = .ok ()) (hne : texts ≠ [])
    (hfiles : fragmentFiles world.files directory = texts.map fun file => (file.1, file.2.toUTF8))
    (htexts : ∀ file ∈ texts, '\r' ∉ file.2.toList) :
    (collectFragments directory world).1
      = .ok (texts.map fun file => ⟨directory.join ⟨.none, file.1⟩, file.2⟩) := by
  refine collectFragments_of_files hdirectory hsearch (hfiles ▸ mt List.map_eq_nil_iff.mp hne) ?_
  rw [hfiles]
  clear hne hfiles
  induction texts with
  | nil => rfl
  | cons file texts ih =>
    rw [List.map_cons, List.mapM_cons, readFragment_toUTF8 _ _ (htexts file List.mem_cons_self),
      ih fun other hmem => htexts other (List.mem_cons_of_mem file hmem)]
    rfl

/-! ## Loading a schema -/

/-- What a service yields: its bindings and its clean schema, or the message of its error. -/
def outcome (settings : Settings) (world : World) : Except String Extraction :=
  (extractService settings world).1.mapError (·.message)

/-- Once the text of a schema is loaded, its source no longer matters. -/
theorem extractService_of_load (h : (loadSchema settings.interface.source world).1 = .ok text) :
    (extractService settings world).1 = (extract text lambdaDirective).mapError .extraction := by
  have hload : Run.mapError ProcessingError.source (loadSchema settings.interface.source) world
      = (.ok text, (loadSchema settings.interface.source world).2) :=
    Run.mapError_of_ok (Prod.ext h rfl)
  rw [extractService, Run.bind_of_ok hload, Run.report_then, Run.ofResult_fst]

theorem outcome_of_load (h : (loadSchema settings.interface.source world).1 = .ok text) :
    outcome settings world = (extract text lambdaDirective).mapError (·.message) := by
  rw [outcome, extractService_of_load h]
  cases extract text lambdaDirective <;> rfl

theorem loadSchema_file {source : SchemaSource} (hkind : source.kind = .file) :
    loadSchema source = readSchemaFile source.path := by
  rw [loadSchema, hkind]

theorem loadSchema_directory {source : SchemaSource} {fragments : List SchemaFragment}
    (hkind : source.kind = .directory) (h : (collectFragments source.path world).1 = .ok fragments) :
    (loadSchema source world).1 = (mergeFragments fragments).mapError .malformed := by
  rw [loadSchema, hkind]
  show ((collectFragments source.path >>= _) world).1 = _
  rw [Run.bind_of_ok (Prod.ext h rfl), Run.report_then, Run.ofResult_fst]

/-- A service whose schema is in a file yields what the text of the file yields. -/
theorem outcome_file (hkind : settings.interface.source.kind = .file)
    (hread : (readSchemaFile settings.interface.source.path world).1 = .ok text) :
    outcome settings world = (extract text lambdaDirective).mapError (·.message) :=
  outcome_of_load (by rw [loadSchema_file hkind, hread])

/-- A service whose schema is in a directory yields what its fragments yield when they are merged and
printed. -/
theorem outcome_directory {fragments : List SchemaFragment} {documents : List Document}
    (hkind : settings.interface.source.kind = .directory)
    (hcollect : (collectFragments settings.interface.source.path world).1 = .ok fragments)
    (hparts : SchemaFragment.parseAll fragments = .ok documents) :
    outcome settings world
      = (extract (Document.merged documents).print lambdaDirective).mapError (·.message) := by
  -- what is loaded is the print of the merged document
  refine outcome_of_load ?_
  rw [loadSchema_directory hkind hcollect, mergeFragments, hparts]
  rfl

/-! ## A file and a directory -/

/-- A schema in the file `whole.graphql`, and two parts of it in the directory `parts`. -/
def inTwoParts (whole first second : String) : World :=
  ⟨⟨.directory [("whole.graphql", .file whole.toUTF8),
    ("parts", .directory [("b.graphql", .file second.toUTF8), ("a.graphql", .file first.toUTF8)])],
    []⟩, []⟩

/-- Settings with this source. -/
def settingsOf (source : SchemaSource) : Settings :=
  ⟨⟨.single, []⟩, [], ⟨source, defaultServiceRole, [], [], []⟩⟩

variable {whole first second : String}

theorem readSchemaFile_inTwoParts (first second : String) (h : '\r' ∉ whole.toList) :
    (readSchemaFile ⟨.single, ["whole.graphql"]⟩ (inTwoParts whole first second)).1 = .ok whole := by
  have hfile : (inTwoParts whole first second).files.isFile ⟨.single, ["whole.graphql"]⟩
      = .ok true := by cbv
  have hbytes : (inTwoParts whole first second).files.read ⟨.single, ["whole.graphql"]⟩
      = .ok whole.toUTF8 := by cbv
  rw [readSchemaFile_of_bytes hfile hbytes, decodeSchema_toUTF8 _ h]

theorem collectFragments_inTwoParts (whole : String) (hfirst : '\r' ∉ first.toList)
    (hsecond : '\r' ∉ second.toList) :
    (collectFragments ⟨.single, ["parts"]⟩ (inTwoParts whole first second)).1
      = .ok [⟨⟨.single, ["parts", "a.graphql"]⟩, first⟩,
          ⟨⟨.single, ["parts", "b.graphql"]⟩, second⟩] := by
  have hdirectory : (inTwoParts whole first second).files.isDirectory ⟨.single, ["parts"]⟩
      = .ok true := by cbv
  have hsearch : (inTwoParts whole first second).files.checkSearch isFragmentName ⟨.single, ["parts"]⟩
      = .ok () := by cbv
  have hfiles : fragmentFiles (inTwoParts whole first second).files ⟨.single, ["parts"]⟩
      = [(["a.graphql"], first.toUTF8), (["b.graphql"], second.toUTF8)] := by cbv
  refine collectFragments_of_texts [(["a.graphql"], first), (["b.graphql"], second)] hdirectory hsearch
    (List.cons_ne_nil _ _) hfiles ?_
  exact List.forall_mem_cons.mpr ⟨hfirst, List.forall_mem_singleton.mpr hsecond⟩

/-! ## A schema that is cut into files -/

/-- Merging the parts of a document whose object types have different names joins them again. -/
theorem merged_of_cut {document : Document} {documents : List Document}
    (hcut : documents.flatMap (·.definitions) = document.definitions)
    (hnames : (objectNames document.definitions).Nodup) : Document.merged documents = document := by
  rw [Document.merged, hcut, mergeDefinitions_of_nodup hnames]

/-- **A directory and a file.** Take a schema file whose object types have different names, and a directory whose
fragments, in order, declare what the file declares. The two yield the same if no definition of the schema without
braces stands in front of a query that is written as a selection set alone. Otherwise they yield the same only if both
fail, with one message. -/
theorem outcome_directory_eq_iff {file directory : Settings} {document : Document}
    {fragments : List SchemaFragment} {documents : List Document}
    (hfile : file.interface.source.kind = .file)
    (hread : (readSchemaFile file.interface.source.path world).1 = .ok text)
    (hparse : Document.parse text = .ok document)
    (hnames : (objectNames document.definitions).Nodup)
    (hdirectory : directory.interface.source.kind = .directory)
    (hcollect : (collectFragments directory.interface.source.path world').1 = .ok fragments)
    (hparts : SchemaFragment.parseAll fragments = .ok documents)
    (hcut : documents.flatMap (·.definitions) = document.definitions) :
    outcome directory world' = outcome file world ↔ document.Separable ∨
      ∃ message, outcome directory world' = .error message ∧ outcome file world = .error message := by
  have hfile := outcome_file hfile hread
  have hdirectory := outcome_directory hdirectory hcollect hparts
  rw [merged_of_cut hcut hnames] at hdirectory
  constructor
  · intro heq
    by_cases hseparable : document.Separable
    · exact .inl hseparable
    · refine .inr ?_
      -- if the file can be scanned, the clean text of the directory is another one or missing
      rw [hfile] at heq ⊢
      cases hextract : extract text lambdaDirective with
      | error e =>
        rw [hextract] at heq
        exact ⟨e.message, heq, rfl⟩
      | ok extraction =>
        rw [hdirectory, hextract] at heq
        exact absurd (mapError_eq_ok.mp heq) (extract_print_ne hparse hseparable hextract)
  · rintro (hseparable | ⟨message, hd, hf⟩)
    · rw [hdirectory, hfile, extract_print_of_separable hparse hseparable]
    · rw [hd, hf]

/-- A type with an annotated field. -/
def annotatedType : String := "type A \x7b f: Int @AWSLambda(handler: \"h\") \x7d"

/-- A type without annotations. -/
def plainType : String := "type B \x7b g: Int \x7d"

/-- Both types in one text, as it is printed. -/
def bothTypes : String :=
  "type A \x7b\n  f: Int @AWSLambda(handler: \"h\")\n\x7d\n\ntype B \x7b\n  g: Int\n\x7d"

def annotatedDefinition : Definition :=
  .type none ⟨"A", [], .object [] [⟨none, "f", [], .named "Int" false,
    [⟨"AWSLambda", [⟨"handler", .string ⟨"h", false⟩⟩]⟩]⟩]⟩

def plainDefinition : Definition :=
  .type none ⟨"B", [], .object [] [⟨none, "g", [], .named "Int" false, []⟩]⟩

/-- The tokens of the two types; the parser is run on these. -/
theorem tokens_types :
    tokens annotatedType.toList = [.name "type", .name "A", .punctuator .braceOpen, .name "f",
      .punctuator .colon, .name "Int", .punctuator .atSign, .name "AWSLambda",
      .punctuator .parenOpen, .name "handler", .punctuator .colon, .string ⟨"h", false⟩,
      .punctuator .parenClose, .punctuator .braceClose, .endOfInput] ∧
    tokens plainType.toList = [.name "type", .name "B", .punctuator .braceOpen, .name "g",
      .punctuator .colon, .name "Int", .punctuator .braceClose, .endOfInput] ∧
    tokens bothTypes.toList
      = (tokens annotatedType.toList).dropLast ++ tokens plainType.toList := by
  decide +kernel

theorem parse_annotatedType : Document.parse annotatedType = .ok ⟨[annotatedDefinition]⟩ := by
  rw [Document.parse, Parser.parseText_eq_ok, tokens_types.1]
  rfl

theorem parse_plainType : Document.parse plainType = .ok ⟨[plainDefinition]⟩ := by
  rw [Document.parse, Parser.parseText_eq_ok, tokens_types.2.1]
  rfl

theorem parse_bothTypes : Document.parse bothTypes = .ok ⟨[annotatedDefinition, plainDefinition]⟩ := by
  rw [Document.parse, Parser.parseText_eq_ok, tokens_types.2.2, tokens_types.1, tokens_types.2.1]
  rfl

/-- The two types in a file each. -/
theorem parseAll_parts : SchemaFragment.parseAll [⟨⟨.single, ["parts", "a.graphql"]⟩, annotatedType⟩,
    ⟨⟨.single, ["parts", "b.graphql"]⟩, plainType⟩]
      = .ok [⟨[annotatedDefinition]⟩, ⟨[plainDefinition]⟩] := by
  rw [SchemaFragment.parseAll, List.mapM_cons, SchemaFragment.parse, parse_annotatedType, List.mapM_cons,
    SchemaFragment.parse, parse_plainType]
  rfl

/-- A type with an annotated field and a type without, in a file each. -/
theorem outcome_directory_eq_owner :
    ∃ file directory world text document fragments documents,
      file.interface.source.kind = .file ∧
      (readSchemaFile file.interface.source.path world).1 = .ok text ∧
      Document.parse text = .ok document ∧
      (objectNames document.definitions).Nodup ∧
      directory.interface.source.kind = .directory ∧
      (collectFragments directory.interface.source.path world).1 = .ok fragments ∧
      SchemaFragment.parseAll fragments = .ok documents ∧
      documents.flatMap (·.definitions) = document.definitions ∧
      (outcome directory world = outcome file world ↔ document.Separable ∨
        ∃ message, outcome directory world = .error message ∧
          outcome file world = .error message) := by
  have hread := readSchemaFile_inTwoParts annotatedType plainType
    (show '\r' ∉ bothTypes.toList by simp [bothTypes])
  have hcollect := collectFragments_inTwoParts bothTypes
    (show '\r' ∉ annotatedType.toList by simp [annotatedType])
    (show '\r' ∉ plainType.toList by simp [plainType])
  have hnames : (objectNames [annotatedDefinition, plainDefinition]).Nodup := by decide
  exact ⟨settingsOf ⟨.file, ⟨.single, ["whole.graphql"]⟩⟩,
    settingsOf ⟨.directory, ⟨.single, ["parts"]⟩⟩, inTwoParts bothTypes annotatedType plainType, bothTypes,
    ⟨[annotatedDefinition, plainDefinition]⟩, _, _, rfl, hread, parse_bothTypes, hnames, rfl, hcollect,
    parseAll_parts, rfl,
    outcome_directory_eq_iff rfl hread parse_bothTypes hnames rfl hcollect parseAll_parts rfl⟩

/-- A file that can be processed, while its parts cannot: merged and printed, the type takes the braces of the
query. -/
theorem outcome_directory_ne : ∃ file directory world text document fragments documents,
    file.interface.source.kind = .file ∧
    (readSchemaFile file.interface.source.path world).1 = .ok text ∧
    Document.parse text = .ok document ∧
    (objectNames document.definitions).Nodup ∧
    directory.interface.source.kind = .directory ∧
    (collectFragments directory.interface.source.path world).1 = .ok fragments ∧
    SchemaFragment.parseAll fragments = .ok documents ∧
    documents.flatMap (·.definitions) = document.definitions ∧
    outcome directory world ≠ outcome file world := by
  let a : Definition := .type none ⟨"A", [], .object [] []⟩
  let q : Definition := .operation ⟨.query, none, [], [], [.field none "a" [] [] []]⟩
  have hwhole : Document.parse "type A query { a }" = .ok ⟨[a, q]⟩ := by cbv
  have hread := readSchemaFile_inTwoParts "type A" "query { a }"
    (show '\r' ∉ "type A query { a }".toList by simp)
  have hcollect := collectFragments_inTwoParts "type A query { a }"
    (show '\r' ∉ "type A".toList by simp)
    (show '\r' ∉ "query { a }".toList by simp)
  have hparts : SchemaFragment.parseAll [⟨⟨.single, ["parts", "a.graphql"]⟩, "type A"⟩,
      ⟨⟨.single, ["parts", "b.graphql"]⟩, "query { a }"⟩] = .ok [⟨[a]⟩, ⟨[q]⟩] := by cbv
  refine ⟨settingsOf ⟨.file, ⟨.single, ["whole.graphql"]⟩⟩,
    settingsOf ⟨.directory, ⟨.single, ["parts"]⟩⟩, _, "type A query { a }", ⟨[a, q]⟩, _, _, rfl, hread,
    hwhole, by decide, rfl, hcollect, hparts, rfl, ?_⟩
  have hextract : extract "type A query { a }" lambdaDirective
      = .ok ⟨[], "type A\n\n\x7b\n  a\n\x7d"⟩ := by cbv
  have hprint : (Document.merged [⟨[a]⟩, ⟨[q]⟩]).print = "type A\n\n\x7b\n  a\n\x7d" := by cbv
  have hfails : (extract "type A\n\n\x7b\n  a\n\x7d" lambdaDirective).toBool = false := by cbv
  have hfile : outcome (settingsOf ⟨.file, ⟨.single, ["whole.graphql"]⟩⟩)
      (inTwoParts "type A query { a }" "type A" "query { a }") = _ := outcome_file rfl hread
  have hdirectory : outcome (settingsOf ⟨.directory, ⟨.single, ["parts"]⟩⟩)
      (inTwoParts "type A query { a }" "type A" "query { a }") = _ :=
    outcome_directory rfl hcollect hparts
  rw [hdirectory, hfile, hprint, hextract]
  intro heq
  rw [mapError_eq_ok.mp heq] at hfails
  cases hfails

end ResolverWiring
