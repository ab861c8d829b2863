import Mathlib
import ResolverWiring.CommandLine.Command
import ResolverWiring.Proofs.Files.PathText

/-!
# `Proofs.CommandLine.Invocation` — what the arguments of a command can be

The values of options are made of the characters of the arguments (`readArguments_comesFrom`), and every value is
checked before a command is run. So the paths that a command works on are paths that files can have
(`Invocation.hasNull_of_run`), and an invocation that cannot be used comes from an argument with the character of
code zero (`Invocation.null_of_unusable`).
-/

namespace ResolverWiring.CommandLine

open Files

variable {files : FileSystem} {arguments : List String} {options : List OptionSpec} {mixed : Bool}
  {r : Reading} {option : OptionSpec} {text : String}

/-! ## Values -/

theorem mem_of_mem_splitAttached {argument value : String} {c : Char}
    (h : (splitAttached argument).2 = some value) (hc : c ∈ value.toList) : c ∈ argument.toList := by
  unfold splitAttached at h
  dsimp only at h
  split at h
  · cases h
  · rename_i _ cs hdrop
    cases h
    have hmem : c ∈ argument.toList.dropWhile (· != '=') := by
      rw [hdrop]
      exact List.mem_cons_of_mem _ (by simpa using hc)
    exact List.dropWhile_subset _ hmem

/-- An attached value stands behind the name of the option in the argument. -/
theorem mem_of_sign?_attached {argument name value : String} {c : Char}
    (h : sign? options argument = some (.attached name value)) (hc : c ∈ value.toList) : c ∈ argument.toList := by
  unfold sign? at h
  dsimp only at h
  split at h
  · split at h
    · cases h
    · cases h
    · rename_i hattached _
      cases h
      exact mem_of_mem_splitAttached hattached hc
    · cases h
  · split at h
    · cases h
    · obtain ⟨names, -, hnames⟩ := Option.map_eq_some_iff.mp h
      cases hnames

/-- Whether the values of a reading are made of characters of arguments, and its words are arguments. -/
structure Reading.ComesFrom (r : Reading) (arguments : List String) : Prop where
  given : ∀ given ∈ r.given, ∀ c ∈ given.value.toList, ∃ argument ∈ arguments, c ∈ argument.toList
  rest : ∀ word ∈ r.rest, word ∈ arguments

namespace Reading.ComesFrom

theorem cons (h : r.ComesFrom arguments) (argument : String) : r.ComesFrom (argument :: arguments) where
  given given hgiven c hc :=
    have ⟨other, hother, hmem⟩ := h.given given hgiven c hc
    ⟨other, List.mem_cons_of_mem _ hother, hmem⟩
  rest word hword := List.mem_cons_of_mem _ (h.rest word hword)

theorem give (h : r.ComesFrom arguments) (name : String) {value : String}
    (hvalue : ∀ c ∈ value.toList, ∃ argument ∈ arguments, c ∈ argument.toList) :
    (r.give name value).ComesFrom arguments :=
  ⟨List.forall_mem_cons.mpr ⟨hvalue, h.given⟩, h.rest⟩

theorem giveAll (h : r.ComesFrom arguments) (names : List String) :
    (names.foldr (fun name r => r.give name "") r).ComesFrom arguments := by
  induction names with
  | nil => exact h
  | cons name names ih => exact ih.give name (by simp)

theorem word (h : r.ComesFrom arguments) (argument : String) :
    (r.word argument).ComesFrom (argument :: arguments) :=
  ⟨(h.cons argument).given, List.forall_mem_cons.mpr ⟨List.mem_cons_self, (h.cons argument).rest⟩⟩

/-- A reading of words only. -/
theorem words {rest : List String} (hrest : ∀ word ∈ rest, word ∈ arguments) :
    (Reading.mk [] rest).ComesFrom arguments :=
  ⟨fun _ h => absurd h List.not_mem_nil, hrest⟩

end Reading.ComesFrom

/-- What is read comes from the arguments. -/
theorem readArguments_comesFrom (h : readArguments options mixed arguments = some r) : r.ComesFrom arguments := by
  fun_induction readArguments options mixed arguments generalizing r with
  | case1 =>
    cases h
    exact .words fun _ h => h
  -- behind two dashes everything is a word
  | case2 others =>
    cases h
    exact .words fun _ h => List.mem_cons_of_mem _ h
  | case3 => cases h
  -- flags have no values
  | case4 argument others _ _ names _ ih =>
    obtain ⟨r', hr', rfl⟩ := Option.map_eq_some_iff.mp h
    exact ((ih hr').cons argument).giveAll names
  -- a value that is attached is a part of the argument
  | case5 argument others _ _ name value hsign ih =>
    obtain ⟨r', hr', rfl⟩ := Option.map_eq_some_iff.mp h
    exact ((ih hr').cons argument).give name fun c hc =>
      ⟨argument, List.mem_cons_self, mem_of_sign?_attached hsign hc⟩
  | case6 => cases h
  -- one that is awaited is the argument behind
  | case7 argument _ _ name hsign value others ih =>
    obtain ⟨r', hr', rfl⟩ := Option.map_eq_some_iff.mp h
    exact (((ih hr').cons value).cons argument).give name fun c hc =>
      ⟨value, List.mem_cons_of_mem _ List.mem_cons_self, hc⟩
  | case8 argument others _ _ _ ih =>
    obtain ⟨r', hr', rfl⟩ := Option.map_eq_some_iff.mp h
    exact (ih hr').word argument
  | case9 argument others =>
    cases h
    exact .words fun _ h => h

/-! ## Checks -/

theorem forM_eq_ok {α ε : Type} {f : α → Except ε Unit} {items : List α} (h : items.forM f = .ok ()) {item : α}
    (hitem : item ∈ items) : f item = .ok () := by
  induction items with
  | nil => cases hitem
  | cons first others ih =>
    change (f first >>= fun _ => others.forM f) = _ at h
    cases hfirst : f first with
    | error e =>
      rw [hfirst] at h
      cases h
    | ok u =>
      rw [hfirst] at h
      rcases List.mem_cons.mp hitem with rfl | hitem
      · exact hfirst
      · exact ih h hitem

theorem Reading.mem_of_value? {name value : String} (h : r.value? name = some value) :
    ⟨name, value⟩ ∈ r.given := by
  obtain ⟨given, hgiven, rfl⟩ := Option.map_eq_some_iff.mp h
  have hname : given.name = name := by simpa using List.find?_some hgiven
  rw [← hname]
  exact List.mem_reverse.mp (List.mem_of_find?_eq_some hgiven)

/-- A path that is checked is one that files can have. -/
theorem ValueSort.check_eq_ok {sort : ValueSort} (hsort : sort.isPath = true)
    (h : sort.check files text = .ok ()) : (Path.ofString text).hasNull = false := by
  unfold ValueSort.check at h
  cases hnull : (Path.ofString text).hasNull with
  | false => rfl
  | true =>
    rw [hsort, hnull] at h
    cases h

theorem hasNull_defaultSettingsName : (Path.ofString defaultSettingsName).hasNull = false := by
  cbv

/-- The value of an option for a path, once the options are checked. -/
theorem Reading.hasNull_of_check (hcheck : r.check options files = .ok ())
    (hoption : options.find? (·.name == option.name) = some option) (hsort : option.value.isPath = true)
    (hdefault : option.default? = none ∨ option.default? = some defaultSettingsName)
    (hvalue : r.valueOf? option = some text) : (Path.ofString text).hasNull = false := by
  unfold Reading.valueOf? at hvalue
  cases hgiven : r.value? option.name with
  | none =>
    rw [hgiven] at hvalue
    change option.default? = some text at hvalue
    rcases hdefault with hnone | hname
    · cases hnone.symm.trans hvalue
    · cases hname.symm.trans hvalue
      exact hasNull_defaultSettingsName
  | some value =>
    rw [hgiven] at hvalue
    cases hvalue
    have hmem : option.name ∈ (r.given.map (·.name)).eraseDups :=
      List.mem_eraseDups.mpr (List.mem_map_of_mem (f := (·.name)) (Reading.mem_of_value? hgiven))
    have hone := forM_eq_ok hcheck hmem
    rw [hoption, hgiven] at hone
    exact ValueSort.check_eq_ok hsort hone

/-- The values of a command that are paths. -/
def Command.paths : Command → List String
  | .extract config service? => config :: service?.toList
  | .generateConfig output => [output]
  | .generateResources config service? output _ => output :: config :: service?.toList
  | .validate config service? => config :: service?.toList

/-- The configuration file and the directory of the service. -/
theorem Reading.hasNull_of_service {config : String} (hcheck : r.check options files = .ok ())
    (hconfig : options.find? (·.name == configOption.name) = some configOption)
    (hservice : options.find? (·.name == serviceOption.name) = some serviceOption)
    (h : r.valueOf? configOption = some config) :
    ∀ path ∈ config :: (r.valueOf? serviceOption).toList, (Path.ofString path).hasNull = false :=
  List.forall_mem_cons.mpr ⟨Reading.hasNull_of_check hcheck hconfig rfl (.inl rfl) h, fun _ hpath =>
    Reading.hasNull_of_check hcheck hservice rfl (.inl rfl) (Option.mem_toList.mp hpath)⟩

theorem CommandKind.hasNull_of_command? {kind : CommandKind} {command : Command}
    (hcheck : r.check kind.spec.options files = .ok ()) (h : kind.command? r = some command) :
    ∀ path ∈ command.paths, (Path.ofString path).hasNull = false := by
  cases kind with
  | extract =>
    obtain ⟨config, hconfig, rfl⟩ := Option.map_eq_some_iff.mp h
    exact Reading.hasNull_of_service hcheck rfl rfl hconfig
  | generateConfig =>
    obtain ⟨output, houtput, rfl⟩ := Option.map_eq_some_iff.mp h
    exact List.forall_mem_singleton.mpr (Reading.hasNull_of_check hcheck rfl rfl (.inr rfl) houtput)
  | generateResources =>
    obtain ⟨config, hconfig, h⟩ := Option.bind_eq_some_iff.mp h
    obtain ⟨output, houtput, h⟩ := Option.bind_eq_some_iff.mp h
    cases h
    exact List.forall_mem_cons.mpr ⟨Reading.hasNull_of_check hcheck rfl rfl (.inl rfl) houtput,
      Reading.hasNull_of_service hcheck rfl rfl hconfig⟩
  | validate =>
    obtain ⟨config, hconfig, rfl⟩ := Option.map_eq_some_iff.mp h
    exact Reading.hasNull_of_service hcheck rfl rfl hconfig

namespace Invocation

theorem ofUnknown_eq (arguments : List String) :
    ofUnknown arguments = .misuse ∨ ∃ text, ofUnknown arguments = .page text := by
  unfold ofUnknown
  split
  · exact .inr ⟨_, rfl⟩
  · exact .inl rfl

/-- An invocation that is neither a page nor misuse asks for a command. -/
theorem ofArguments_cases (files : FileSystem) (arguments : List String) :
    ofArguments files arguments = .misuse ∨ (∃ text, ofArguments files arguments = .page text) ∨
      ∃ verbose kind others, (∀ other ∈ others, other ∈ arguments) ∧
        ofArguments files arguments = ofCommand files verbose kind others := by
  unfold ofArguments
  split
  · exact .inl rfl
  · rename_i reading hread
    split
    · exact .inr (.inl ⟨_, rfl⟩)
    · split
      · exact .inl rfl
      · rename_i name others hrest
        split
        · refine .inr (.inr ⟨_, _, others, fun other hother => ?_, rfl⟩)
          exact (readArguments_comesFrom hread).rest other (by rw [hrest]; exact List.mem_cons_of_mem _ hother)
        · rcases ofUnknown_eq (name :: others) with h | h
          · exact .inl h
          · exact .inr (.inl h)

/-- **The paths of a command that is run are such as files can have.** -/
theorem hasNull_of_run {verbose : Bool} {command : Command}
    (h : ofArguments files arguments = .run verbose command) :
    ∀ path ∈ command.paths, (Path.ofString path).hasNull = false := by
  rcases ofArguments_cases files arguments with hmisuse | ⟨text, hpage⟩ | ⟨_, kind, others, -, hcommand⟩
  · cases hmisuse.symm.trans h
  · cases hpage.symm.trans h
  · rw [hcommand] at h
    unfold ofCommand at h
    split at h
    · cases h
    · split at h
      · cases h
      · split at h
        · cases h
        · cases h
        · rename_i hcheck hread
          split at h
          · cases h
            exact CommandKind.hasNull_of_command? hcheck hread
          · cases h
        · cases h

/-- The name of a command stands in front of its arguments. -/
theorem ofArguments_cons {name : String} {others : List String} {kind : CommandKind} (hname : name ≠ "--")
    (hdash : hasDash name = false) (hkind : commandKinds.find? (·.spec.name == name) = some kind) :
    ofArguments files (name :: others) = ofCommand files false kind others := by
  have hwords : readArguments program.options false (name :: others) = some ⟨[], name :: others⟩ := by
    rw [readArguments, if_neg hname, hdash]
    rfl
  simp only [ofArguments, hwords, hkind]
  rfl

theorem ofCommand_of_reading {verbose : Bool} {kind : CommandKind} {command : Command}
    (hread : readArguments kind.spec.options true arguments = some r)
    (hpage : r.page? (commandPage program.name kind.spec) = none)
    (hcheck : r.check kind.spec.options files = .ok ()) (hcommand : kind.command? r = some command)
    (hrest : r.rest = []) : ofCommand files verbose kind arguments = .run verbose command := by
  unfold ofCommand
  simp only [hread, hpage, hcheck, hcommand, hrest]
  rfl

theorem ofArguments_generateConfig (files : FileSystem) :
    ofArguments files ["generate-config"] = .run false (.generateConfig "serverless.yml") := by
  have hread : readArguments CommandKind.generateConfig.spec.options true [] = some ⟨[], []⟩ := rfl
  have hdash : hasDash "generate-config" = false := by simp [hasDash]
  have hfind : commandKinds.find? (·.spec.name == "generate-config") = some .generateConfig := by decide
  rw [ofArguments_cons (by decide) hdash hfind]
  exact ofCommand_of_reading hread rfl rfl rfl rfl

/-- A command with the options of `extract` and `validate`, of which the configuration is given. -/
theorem ofCommand_config (files : FileSystem) {kind : CommandKind} {command : Command}
    (hoptions : kind.spec.options = [configOption, serviceOption, helpOption])
    (hcommand : kind.command? ⟨[⟨"config", "serverless.yml"⟩], []⟩ = some command) :
    ofCommand files false kind ["--config", "serverless.yml"] = .run false command := by
  have hread : readArguments kind.spec.options true ["--config", "serverless.yml"]
      = some ⟨[⟨"config", "serverless.yml"⟩], []⟩ := by
    rw [hoptions]
    cbv
  have hcheck : Reading.check ⟨[⟨"config", "serverless.yml"⟩], []⟩ kind.spec.options files = .ok () := by
    rw [hoptions]
    show (configOption.value.check files "serverless.yml" >>= fun _ => .ok ()) = _
    rw [ValueSort.check, show (Path.ofString "serverless.yml").hasNull = false from hasNull_defaultSettingsName]
    rfl
  exact ofCommand_of_reading hread rfl hcheck hcommand rfl

theorem ofArguments_extract (files : FileSystem) :
    ofArguments files ["extract", "--config", "serverless.yml"] = .run false (.extract "serverless.yml" none) := by
  have hdash : hasDash "extract" = false := by simp [hasDash]
  have hfind : commandKinds.find? (·.spec.name == "extract") = some .extract := by decide
  rw [ofArguments_cons (by decide) hdash hfind]
  exact ofCommand_config files rfl rfl

theorem ofArguments_validate (files : FileSystem) :
    ofArguments files ["validate", "--config", "serverless.yml"] = .run false (.validate "serverless.yml" none) := by
  have hdash : hasDash "validate" = false := by simp [hasDash]
  have hfind : commandKinds.find? (·.spec.name == "validate") = some .validate := by decide
  rw [ofArguments_cons (by decide) hdash hfind]
  exact ofCommand_config files rfl rfl

end Invocation

end ResolverWiring.CommandLine
