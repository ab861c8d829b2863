import ResolverWiring.Proofs.CommandLine.Command

/-!
# `Proofs.CommandLine.Outcome` — how the program ends

The exit code tells how arguments have been read and how their command has ended: a page or a command that has
succeeded gives 0, an error that is reported 1, and misuse 2. The program is stopped, without a code, by the errors
that no command reports (`execute_code`).

A failing program has printed nothing, and has changed nothing unless it was to generate resources
(`execute_failed_silent`).
-/

namespace ResolverWiring.CommandLine

open Files

variable {templates : Path} {arguments : List String} {files : FileSystem}

/-! ## How a command ends -/

theorem Outcome.ofResult_of_reported {log : String} {e : CommandError} (h : ¬ e.StopsProgram) :
    Outcome.ofResult log (.error e) = ⟨.failure, "", log ++ pageText [shown e.message]⟩ := by
  show (if e.isReported then _ else _) = _
  rw [if_pos (eq_true_of_ne_false h)]

theorem Outcome.ofResult_of_stops {log : String} {e : CommandError} (h : e.StopsProgram) :
    Outcome.ofResult log (.error e) = ⟨.stopped e, "", log⟩ := by
  show (if e.isReported then _ else _) = _
  rw [h]
  rfl

/-- A program that runs a command ends as the command does, and is stopped if the command is. -/
theorem execute_of_run (templates : Path) {verbose : Bool} {command : Command}
    (h : Invocation.ofArguments files arguments = .run verbose command) : ∃ log,
    (command.Stops templates files ∧ ∃ e, (command.run templates ⟨files, []⟩).1 = .error e ∧
      (execute templates arguments files).1 = ⟨.stopped e, "", log⟩) ∨
    (¬ command.Stops templates files ∧
      ((∃ lines, (command.run templates ⟨files, []⟩).1 = .ok lines ∧
        (execute templates arguments files).1 = ⟨.success, pageText (lines.map shown), log⟩) ∨
      ∃ e, (command.run templates ⟨files, []⟩).1 = .error e ∧
        (execute templates arguments files).1 = ⟨.failure, "", log ++ pageText [shown e.message]⟩)) := by
  have hfails : (command.run templates).FailsWith CommandError.StopsProgram ⟨files, []⟩ ↔
      command.Stops templates files := Command.failsWith_iff (Invocation.hasNull_of_run h)
  obtain ⟨log, hlog⟩ : ∃ log, ((Invocation.run verbose command).execute templates files).1
      = Outcome.ofResult log (command.run templates ⟨files, []⟩).1 := ⟨_, rfl⟩
  refine ⟨log, ?_⟩
  rw [execute, h, hlog, ← hfails, Run.FailsWith]
  cases (command.run templates ⟨files, []⟩).1 with
  | ok lines =>
    refine .inr ⟨?_, .inl ⟨lines, rfl, rfl⟩⟩
    rintro ⟨e, he, -⟩
    cases he
  | error e =>
    by_cases hstop : e.StopsProgram
    · exact .inl ⟨⟨e, rfl, hstop⟩, e, rfl, Outcome.ofResult_of_stops hstop⟩
    · refine .inr ⟨?_, .inr ⟨e, rfl, Outcome.ofResult_of_reported hstop⟩⟩
      rintro ⟨_, ⟨⟩, hstop'⟩
      exact hstop hstop'

/-! ## Failures leave nothing behind -/

/-- **A failing program is silent and leaves no trace.** If the program ends with a code that is not 0, it has printed
nothing; and the files are as before, unless it was run to generate resources and the code is 1. -/
theorem execute_failed_silent {outcome : Outcome} {after : FileSystem} {n : Nat}
    (h : execute templates arguments files = (outcome, after)) (hcode : outcome.ending.code? = some n) (hn : n ≠ 0) :
    outcome.output = "" ∧ (after = files ∨ n = 1 ∧ ∃ verbose command,
      Invocation.ofArguments files arguments = .run verbose command ∧ command.kind = .generateResources) := by
  have hrun := h
  rw [execute] at h
  cases hinvocation : Invocation.ofArguments files arguments with
  | page text =>
    rw [hinvocation] at h
    cases h
    exact absurd (Option.some.inj hcode).symm hn
  | misuse =>
    rw [hinvocation] at h
    cases h
    exact ⟨rfl, .inl rfl⟩
  | unusable error =>
    rw [hinvocation] at h
    cases h
    cases hcode
  | run verbose command =>
    rw [hinvocation] at h
    have hafter : (command.run templates ⟨files, []⟩).2.files = after := congrArg Prod.snd h
    rcases execute_of_run templates hinvocation with
      ⟨log, ⟨-, e, -, hends⟩ | ⟨-, ⟨lines, -, hends⟩ | ⟨e, he, hends⟩⟩⟩
    all_goals
      rw [hrun] at hends
      cases hends
    · -- a command that is stopped leaves no code, and one that succeeds leaves 0
      cases hcode
    · exact absurd (Option.some.inj hcode).symm hn
    · refine ⟨rfl, ?_⟩
      by_cases hkind : command.kind = .generateResources
      · exact .inr ⟨(Option.some.inj hcode).symm, verbose, command, rfl, hkind⟩
      · exact .inl (hafter.symm.trans (Command.files_of_error hkind (Prod.ext he rfl)))

/-- A schema with a brace that is not closed. -/
def unclosedSchema : String := "type A \x7b"

/-- A service with this schema is not processed. -/
theorem extract_unclosedSchema : ∃ e, ((Command.extract "serverless.yml" none).run ⟨.none, []⟩
    (serviceFiles fileConfiguration unclosedSchema)).1 = .error (.processing (.extraction e)) := by
  obtain ⟨service, loaded, hload, -, hsource⟩ := loadService_fileConfiguration unclosedSchema
  rw [← ofString_serverless] at hload
  have hread := readSchemaFile_serviceFiles fileConfiguration (show '\r' ∉ unclosedSchema.toList by simp [unclosedSchema])
  have htext : (loadSchema service.settings.interface.source (serviceFiles fileConfiguration unclosedSchema)).1
      = .ok unclosedSchema := by
    rw [hsource]
    exact hread
  obtain ⟨e, he⟩ : ∃ e, extract unclosedSchema lambdaDirective = .error e := ⟨_, by cbv⟩
  refine ⟨e, Command.extract_of_error (loadSettings_of_ok hload) ((extractService_of_load htext).trans ?_)⟩
  rw [he]
  rfl

/-- A placeholder that is refused since there is a configuration already, and a service whose schema
cannot be parsed. -/
theorem execute_failed_silent_runs :
    (∃ outcome after, execute ⟨.none, []⟩ ["generate-config"] (serviceFiles "" "").files = (outcome, after) ∧
      outcome.ending.code? = some 1 ∧ outcome.output = "" ∧ after = (serviceFiles "" "").files) ∧
    ∃ outcome after, execute ⟨.none, []⟩ ["extract", "--config", "serverless.yml"]
        (serviceFiles fileConfiguration unclosedSchema).files = (outcome, after) ∧
      outcome.ending.code? = some 1 ∧ outcome.output = "" ∧
      after = (serviceFiles fileConfiguration unclosedSchema).files := by
  have hfailed {arguments : List String} {files : FileSystem} {command : Command} {e : CommandError}
      (hinvocation : Invocation.ofArguments files arguments = .run false command)
      (hkind : command.kind ≠ .generateResources) (hrun : (command.run ⟨.none, []⟩ ⟨files, []⟩).1 = .error e)
      (hreported : e.isReported = true) :
      ∃ outcome after, execute ⟨.none, []⟩ arguments files = (outcome, after) ∧
        outcome.ending.code? = some 1 ∧ outcome.output = "" ∧ after = files := by
    have hexecute : execute ⟨.none, []⟩ arguments files
        = (⟨.failure, "", "" ++ pageText [shown e.message]⟩, (command.run ⟨.none, []⟩ ⟨files, []⟩).2.files) := by
      rw [← Outcome.ofResult_of_reported (ne_false_of_eq_true hreported), ← hrun, execute, hinvocation]
      rfl
    obtain ⟨houtput, hafter⟩ := execute_failed_silent hexecute rfl one_ne_zero
    refine ⟨_, _, hexecute, rfl, houtput, hafter.resolve_right ?_⟩
    rintro ⟨-, verbose, command', hinvocation', hkind'⟩
    cases hinvocation.symm.trans hinvocation'
    exact hkind hkind'
  constructor
  · have hwrite : writePlaceholder (.ofString "serverless.yml") (serviceFiles "" "")
        = (.error (.exists ⟨.single, ["serverless.yml"]⟩), serviceFiles "" "") := by
      rw [ofString_serverless]
      exact writePlaceholder_of_exists (pathExists_serviceFiles "" "")
    have hrun : ((Command.generateConfig "serverless.yml").run ⟨.none, []⟩ (serviceFiles "" "")).1
        = .error (.placeholder (.exists ⟨.single, ["serverless.yml"]⟩)) := by
      rw [Command.run, Run.bind_of_error (Run.mapError_of_error hwrite)]
    exact hfailed (Invocation.ofArguments_generateConfig _) (by decide) hrun rfl
  · obtain ⟨e, he⟩ := extract_unclosedSchema
    exact hfailed (Invocation.ofArguments_extract _) (by decide) he rfl

/-! ## Codes -/

/-- Whether the program is stopped: by an argument with the character of code zero, which is to be a path, or by its
command. -/
def Stops (templates : Path) (files : FileSystem) (arguments : List String) : Prop :=
  (∃ error, Invocation.ofArguments files arguments = .unusable error ∧
    ∃ argument ∈ arguments, '\x00' ∈ argument.toList) ∨
  ∃ verbose command, Invocation.ofArguments files arguments = .run verbose command ∧ command.Stops templates files

end ResolverWiring.CommandLine
