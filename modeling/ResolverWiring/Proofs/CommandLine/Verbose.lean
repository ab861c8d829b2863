import ResolverWiring.CommandLine.Outcome
import ResolverWiring.Proofs.CommandLine.Invocation
import ResolverWiring.Proofs.Service.Run

/-!
# `Proofs.CommandLine.Verbose` — log lines change nothing else

No command looks at the log: whatever it holds, the command comes to the same result, leaves the same files and adds
the same entries (`Command.run_onlyReports`). The option for log lines asks for the same as the arguments without it,
but for the lines (`Invocation.ofArguments_verbose`). So with the option the program ends, prints and leaves the files
as it does without it, and its messages have log lines in front (`execute_verbose`).
-/

namespace ResolverWiring

open Files

/-! ## Actions that only add to the log -/

namespace Run

variable {ε ε' α β : Type}

/-- Whether an action only adds to the log: on each file system there is one result, one file system afterwards and
one list of new entries, whatever the log is. -/
def OnlyReports (action : Run ε α) : Prop :=
  ∀ files, ∃ result after added, ∀ log, action ⟨files, log⟩ = (result, ⟨after, added ++ log⟩)

namespace OnlyReports

theorem pure (a : α) : OnlyReports (Pure.pure a : Run ε α) := fun files => ⟨.ok a, files, [], fun _ => rfl⟩

theorem throw (e : ε) : OnlyReports (MonadExcept.throw e : Run ε α) := fun files => ⟨.error e, files, [], fun _ => rfl⟩

theorem files : OnlyReports (Run.files : Run ε FileSystem) := fun files => ⟨.ok files, files, [], fun _ => rfl⟩

theorem setFiles (changed : FileSystem) : OnlyReports (Run.setFiles changed : Run ε Unit) :=
  fun _ => ⟨.ok (), changed, [], fun _ => rfl⟩

theorem report (entries : List LogEntry) : OnlyReports (Run.report entries : Run ε Unit) :=
  fun files => ⟨.ok (), files, entries.reverse, fun _ => rfl⟩

theorem ofResult (wrap : ε' → ε) (result : Except ε' α) : OnlyReports (Run.ofResult wrap result) := by
  cases result with
  | ok a => exact .pure a
  | error e => exact .throw (wrap e)

/-- The entries of two actions in a row are those of both, if the first has succeeded. -/
theorem bind {action : Run ε α} {f : α → Run ε β} (hfirst : OnlyReports action) (hrest : ∀ a, OnlyReports (f a)) :
    OnlyReports (action >>= f) := by
  intro files
  obtain ⟨result, between, added, hrun⟩ := hfirst files
  cases result with
  | error e => exact ⟨.error e, between, added, fun log => bind_of_error (hrun log)⟩
  | ok a =>
    obtain ⟨result, after, further, hrun'⟩ := hrest a between
    refine ⟨result, after, further ++ added, fun log => ?_⟩
    rw [bind_of_ok (hrun log), hrun', List.append_assoc]

theorem mapError {wrap : ε' → ε} {action : Run ε' α} (h : OnlyReports action) :
    OnlyReports (Run.mapError wrap action) := by
  intro files
  obtain ⟨result, after, added, hrun⟩ := h files
  cases result with
  | ok a => exact ⟨.ok a, after, added, fun log => mapError_of_ok (hrun log)⟩
  | error e => exact ⟨.error (wrap e), after, added, fun log => mapError_of_error (hrun log)⟩

theorem ite {c : Bool} {first second : Run ε α} (hyes : OnlyReports first) (hno : OnlyReports second) :
    OnlyReports (if c then first else second) := by
  cases c with
  | true => exact hyes
  | false => exact hno

theorem write (path : Path) (text : String) : OnlyReports (Run.write path text) :=
  .bind .files fun _ => .bind (.ofResult _ _) fun _ => .setFiles _

theorem makeDirectories (path : Path) : OnlyReports (Run.makeDirectories path) := by
  apply bind .files
  intro files
  obtain ⟨changed, error?, hmake⟩ : ∃ changed error?, files.makeDirectories path = (changed, error?) := ⟨_, _, rfl⟩
  rw [hmake]
  apply bind (.setFiles changed)
  intro _
  cases error? with
  | none => exact .pure ()
  | some e => exact .throw e

end OnlyReports

end Run

/-! ## Services -/

section Services

open Run

theorem loadService_onlyReports (path : Path) (directory? : Option String) :
    OnlyReports (loadService path directory?) := by
  apply OnlyReports.bind .files
  intro files
  apply OnlyReports.bind (.ofResult _ _)
  intro isThere
  -- A check that may throw is an action of its own, and the other steps stand behind both of its outcomes.
  refine .ite (.bind (.throw _) fun _ => ?_) ?_
  all_goals
    refine .bind (.ofResult _ _) fun bytes => .bind (.ofResult _ _) fun text => .bind (.ofResult _ _) fun value =>
      .bind (.ofResult _ _) fun root => .bind (.ofResult _ _) fun servicePath => ?_
    exact .bind (.ofResult _ _) fun settings => .bind (.report _) fun _ => .bind (.ofResult _ _) fun name => .pure _

theorem writePlaceholder_onlyReports (path : Path) : OnlyReports (writePlaceholder path) := by
  apply OnlyReports.bind .files
  intro files
  apply OnlyReports.bind (.ofResult _ _)
  intro isThere
  refine .ite (.bind (.throw _) fun _ => ?_) ?_
  all_goals exact .bind (.mapError (.write _ _)) fun _ => .pure _

theorem collectFragments_onlyReports (directory : Path) : OnlyReports (collectFragments directory) := by
  apply OnlyReports.bind .files
  intro files
  apply OnlyReports.bind (.ofResult _ _)
  intro isDirectory
  refine .ite (.bind (.throw _) fun _ => ?_) ?_
  all_goals
    refine .bind (.ofResult _ _) fun _ => .ite (.bind (.throw _) fun _ => ?_) ?_
    all_goals exact .bind (.report _) fun _ => .ofResult _ _

theorem readSchemaFile_onlyReports (path : Path) : OnlyReports (readSchemaFile path) := by
  apply OnlyReports.bind .files
  intro files
  refine .bind (.ofResult _ _) fun isFile => .ite (.bind (.throw _) fun _ => ?_) ?_
  all_goals exact .bind (.ofResult _ _) fun bytes => .ofResult _ _

theorem loadSchema_onlyReports (source : SchemaSource) : OnlyReports (loadSchema source) := by
  unfold loadSchema
  cases source.kind with
  | directory =>
    exact .bind (collectFragments_onlyReports _) fun fragments => .bind (.report _) fun _ => .ofResult _ _
  | file => exact readSchemaFile_onlyReports _

theorem extractService_onlyReports (settings : Settings) : OnlyReports (extractService settings) :=
  .bind (.mapError (loadSchema_onlyReports _)) fun _ => .bind (.report _) fun _ => .ofResult _ _

theorem processSchema_onlyReports (settings : Settings) : OnlyReports (processSchema settings) :=
  .bind (extractService_onlyReports settings) fun _ => .bind (.mapError (.write _ _)) fun _ =>
    .bind (.report _) fun _ => .bind .files fun _ => .pure _

theorem writeResources_onlyReports (path : Path) (built : Yaml.Value) : OnlyReports (writeResources path built) :=
  .bind (.mapError (.makeDirectories _)) fun _ => .bind (.ofResult _ _) fun _ => .mapError (.write _ _)

theorem generateResources_onlyReports (settings : Settings) (output : Path) (role? : Option String)
    (templates : Path) : OnlyReports (generateResources settings output role? templates) :=
  .bind (processSchema_onlyReports settings) fun _ => .bind (.report _) fun _ =>
    .bind (writeResources_onlyReports _ _) fun _ => .bind .files fun _ => .pure _

theorem validateService_onlyReports (settings : Settings) : OnlyReports (validateService settings) :=
  .bind (.mapError (extractService_onlyReports settings)) fun _ => .bind (.ofResult _ _) fun _ => .report _

end Services

namespace CommandLine

variable {templates : Path} {arguments : List String} {files : FileSystem}

theorem loadSettings_onlyReports (config : String) (service? : Option String) :
    Run.OnlyReports (loadSettings config service?) :=
  .bind (.mapError (loadService_onlyReports _ _)) fun _ => .pure _

/-- What a command does does not depend on the log. -/
theorem Command.run_onlyReports (templates : Path) (command : Command) : (command.run templates).OnlyReports := by
  cases command with
  | extract config service? =>
    exact .bind (loadSettings_onlyReports config service?) fun settings =>
      .bind (.mapError (processSchema_onlyReports settings)) fun _ => .pure _
  | generateConfig output => exact .bind (.mapError (writePlaceholder_onlyReports _)) fun _ => .pure _
  | generateResources config service? output role? =>
    exact .bind (loadSettings_onlyReports config service?) fun settings =>
      .bind (.mapError (generateResources_onlyReports settings _ _ _)) fun _ => .pure _
  | validate config service? =>
    exact .bind (loadSettings_onlyReports config service?) fun settings =>
      .bind (.mapError (validateService_onlyReports settings)) fun _ => .pure _

/-! ## The option -/

namespace Invocation

/-- The same invocation with log lines. -/
def shown : Invocation → Invocation
  | .run _ command => .run true command
  | other => other

theorem readArguments_verbose (arguments : List String) :
    readArguments program.options false ("--verbose" :: arguments)
      = (readArguments program.options false arguments).map (·.give verboseOption.name "") := by
  have hdash : hasDash "--verbose" = true := by simp [hasDash]
  have hsign : sign? program.options "--verbose" = some (.flags [verboseOption.name]) := by cbv
  rw [readArguments, if_neg (by decide), if_pos hdash, hsign]
  rfl

/-- An option that is given has a value. -/
theorem isSome_value?_give (r : Reading) (name value : String) : ((r.give name value).value? name).isSome = true := by
  show (((Given.mk name value :: r.given).reverse.find? (·.name == name)).map Given.value).isSome = true
  rw [Option.isSome_map, List.find?_isSome]
  exact ⟨⟨name, value⟩, List.mem_reverse.mpr List.mem_cons_self, beq_self_eq_true name⟩

/-- Whether there are log lines makes no difference to how the arguments of a command are read. -/
theorem ofCommand_shown (files : FileSystem) (verbose : Bool) (kind : CommandKind) (arguments : List String) :
    (ofCommand files verbose kind arguments).shown = ofCommand files true kind arguments := by
  unfold ofCommand
  cases readArguments kind.spec.options true arguments with
  | none => rfl
  | some r =>
    dsimp only
    cases r.page? (commandPage program.name kind.spec) with
    | some text => rfl
    | none =>
      dsimp only
      split
      · rfl
      · rfl
      · split
        · rfl
        · rfl
      · rfl

/-- The option for log lines asks for nothing else: neither for a page, nor for another command. -/
theorem ofArguments_verbose (files : FileSystem) (arguments : List String) :
    ofArguments files ("--verbose" :: arguments) = (ofArguments files arguments).shown := by
  unfold ofArguments
  rw [readArguments_verbose]
  cases readArguments program.options false arguments with
  | none => rfl
  | some r =>
    have hpage : (r.give verboseOption.name "").page? helpPage = r.page? helpPage := rfl
    have hrest : (r.give verboseOption.name "").rest = r.rest := rfl
    rw [Option.map_some]
    dsimp only
    rw [hpage, hrest, isSome_value?_give]
    cases r.page? helpPage with
    | some text => rfl
    | none =>
      cases r.rest with
      | nil => rfl
      | cons name others =>
        dsimp only
        cases commandKinds.find? (·.spec.name == name) with
        | some kind => exact (ofCommand_shown files _ kind others).symm
        | none =>
          -- No command has the name, which is a misuse or a page with or without the option.
          show ofUnknown (name :: others) = (ofUnknown (name :: others)).shown
          rcases ofUnknown_eq (name :: others) with hmisuse | ⟨text, hpage⟩
          · rw [hmisuse]
            rfl
          · rw [hpage]
            rfl

end Invocation

/-! ## The program -/

/-- What comes of a command does not depend on the log lines, which stand in front of its messages. -/
theorem Outcome.ofResult_log (log : String) (result : Except CommandError (List String)) :
    Outcome.ofResult log result
      = { Outcome.ofResult "" result with messages := log ++ (Outcome.ofResult "" result).messages } := by
  cases result with
  | ok lines =>
    show (⟨_, _, log⟩ : Outcome) = ⟨_, _, log ++ ""⟩
    rw [String.append_empty]
    rfl
  | error e =>
    by_cases hreported : e.isReported = true
    · simp [Outcome.ofResult, hreported]
    · simp [Outcome.ofResult, hreported]

/-- What is invoked with log lines ends, prints and changes the same, and has log lines in front of its messages. -/
theorem Invocation.execute_shown (templates : Path) (files : FileSystem) (invocation : Invocation) :
    ∃ entries : List LogEntry, invocation.shown.execute templates files
      = ({ (invocation.execute templates files).1 with
            messages := pageText (entries.map (·.line)) ++ (invocation.execute templates files).1.messages },
          (invocation.execute templates files).2) := by
  have hnone : ∀ outcome : Outcome,
      { outcome with messages := pageText (([] : List LogEntry).map (·.line)) ++ outcome.messages } = outcome := by
    intro outcome
    show { outcome with messages := "" ++ outcome.messages } = outcome
    rw [String.empty_append]
  cases invocation with
  | page text => exact ⟨[], by rw [hnone]; rfl⟩
  | misuse => exact ⟨[], by rw [hnone]; rfl⟩
  | unusable error => exact ⟨[], by rw [hnone]; rfl⟩
  | run verbose command =>
    cases verbose with
    | true => exact ⟨[], by rw [hnone]; rfl⟩
    | false =>
      -- The log is the same in both runs; only the one with log lines prints it.
      obtain ⟨result, after, hrun⟩ : ∃ result after, command.run templates ⟨files, []⟩ = (result, after) := ⟨_, _, rfl⟩
      refine ⟨after.log.reverse, ?_⟩
      show (run true command).execute templates files = _
      simp only [execute, hrun, if_true, Bool.false_eq_true, if_false]
      rw [Outcome.ofResult_log]

/-- **Log lines interfere with nothing.** With the option for log lines in front of its arguments, the program ends as
it does without, prints the same and leaves the same files. What it says besides differs, unless the arguments are
misused, by log lines in front. What a command does, and what it adds to the log, does not depend on the log at all. -/
theorem execute_verbose (templates : Path) (arguments : List String) (files : FileSystem) :
    let silent := execute templates arguments files
    let verbose := execute templates ("--verbose" :: arguments) files
    verbose.1.ending = silent.1.ending ∧ verbose.1.output = silent.1.output ∧ verbose.2 = silent.2 ∧
    (silent.1.ending.code? ≠ some 2 → ∃ entries : List LogEntry,
      verbose.1.messages = pageText (entries.map (·.line)) ++ silent.1.messages) ∧
    ∀ command : Command, (command.run templates).OnlyReports := by
  intro silent verbose
  obtain ⟨entries, hentries⟩ := (Invocation.ofArguments files arguments).execute_shown templates files
  have hverbose : verbose = ({ silent.1 with messages := pageText (entries.map (·.line)) ++ silent.1.messages },
      silent.2) := by
    show (Invocation.ofArguments files ("--verbose" :: arguments)).execute templates files = _
    rw [Invocation.ofArguments_verbose, hentries]
    rfl
  rw [hverbose]
  exact ⟨rfl, rfl, rfl, fun _ => ⟨entries, rfl⟩, Command.run_onlyReports templates⟩

end CommandLine

end ResolverWiring
