import ResolverWiring.Service.Run

/-!
# `Proofs.Service.Run` — what an action depends on, and what it leaves alone

An action that only reads gives the same result on all file systems between which it cannot tell the
difference, whatever the log says, and leaves each of them as it is. `Run.Alike` says so of two actions, the
first on one file system and the second on another; one lemma for each way to build an action carries it from
the parts to the whole. With one file system on both sides it says that the action changes nothing.

`bind_eq_ok` and `bind_eq_error` take a finished run apart. Where only the files before and after an action matter,
`Run.Effect` relates them, and where only the sort of an error matters, `Run.FailsWith` says that an action fails with
one of this sort; again there is one lemma for each way to build an action.
-/

namespace ResolverWiring.Run

open Files

variable {ε ε' α β : Type} {world world' : World} {files files' : FileSystem}

/-! ## Running -/

theorem bind_of_ok {action : Run ε α} {f : α → Run ε β} {a : α} (h : action world = (.ok a, world')) :
    (action >>= f) world = f a world' := by
  show ExceptT.bindCont f (action world).1 (action world).2 = _
  rw [h]
  rfl

theorem bind_of_error {action : Run ε α} {f : α → Run ε β} {e : ε}
    (h : action world = (.error e, world')) : (action >>= f) world = (.error e, world') := by
  show ExceptT.bindCont f (action world).1 (action world).2 = _
  rw [h]
  rfl

theorem ofResult_fst (wrap : ε' → ε) (result : Except ε' α) :
    (ofResult wrap result world).1 = result.mapError wrap := by
  cases result <;> rfl

theorem mapError_of_ok {wrap : ε' → ε} {action : Run ε' α} {a : α}
    (h : action world = (.ok a, world')) : mapError wrap action world = (.ok a, world') := by
  unfold mapError
  rw [h]

theorem mapError_of_error {wrap : ε' → ε} {action : Run ε' α} {e : ε'}
    (h : action world = (.error e, world')) : mapError wrap action world = (.error (wrap e), world') := by
  unfold mapError
  rw [h]

theorem report_then {entries : List LogEntry} {action : Run ε α} :
    ((do report entries; action : Run ε α) world)
      = action { world with log := entries.reverse ++ world.log } := rfl

/-! ## Taking runs apart -/

theorem bind_eq_ok {action : Run ε α} {f : α → Run ε β} {b : β}
    (h : (action >>= f) world = (.ok b, world')) :
    ∃ a between, action world = (.ok a, between) ∧ f a between = (.ok b, world') := by
  change ExceptT.bindCont f (action world).1 (action world).2 = _ at h
  cases hrun : action world with
  | mk result between =>
    rw [hrun] at h
    cases result with
    | ok a => exact ⟨a, between, rfl, h⟩
    | error e => cases h

theorem bind_eq_error {action : Run ε α} {f : α → Run ε β} {e : ε}
    (h : (action >>= f) world = (.error e, world')) :
    action world = (.error e, world') ∨
      ∃ a between, action world = (.ok a, between) ∧ f a between = (.error e, world') := by
  change ExceptT.bindCont f (action world).1 (action world).2 = _ at h
  cases hrun : action world with
  | mk result between =>
    rw [hrun] at h
    cases result with
    | ok a => exact .inr ⟨a, between, rfl, h⟩
    | error e' =>
      cases h
      exact .inl rfl

theorem mapError_eq_ok {wrap : ε' → ε} {action : Run ε' α} {a : α}
    (h : mapError wrap action world = (.ok a, world')) : action world = (.ok a, world') := by
  unfold mapError at h
  split at h
  · rename_i hrun
    cases h
    exact hrun
  · cases h

theorem mapError_eq_error {wrap : ε' → ε} {action : Run ε' α} {e : ε}
    (h : mapError wrap action world = (.error e, world')) :
    ∃ e', action world = (.error e', world') ∧ wrap e' = e := by
  unfold mapError at h
  split at h
  · cases h
  · rename_i hrun
    cases h
    exact ⟨_, hrun, rfl⟩

theorem ofResult_eq_ok {wrap : ε' → ε} {result : Except ε' α} {a : α}
    (h : ofResult wrap result world = (.ok a, world')) : result = .ok a ∧ world' = world := by
  cases result with
  | ok a' =>
    cases h
    exact ⟨rfl, rfl⟩
  | error e => cases h

theorem ofResult_eq_error {wrap : ε' → ε} {result : Except ε' α} {e : ε}
    (h : ofResult wrap result world = (.error e, world')) :
    ∃ e', result = .error e' ∧ wrap e' = e ∧ world' = world := by
  cases result with
  | ok a => cases h
  | error e' =>
    cases h
    exact ⟨e', rfl, rfl, rfl⟩

/-! ## Writing -/

theorem write_eq_ok {path : Path} {text : String} {u : Unit}
    (h : write path text world = (.ok u, world')) :
    ∃ after, world.files.write path text.toUTF8 = .ok after ∧ world' = { world with files := after } := by
  change (ofResult id (world.files.write path text.toUTF8) >>= setFiles) world = (.ok u, world') at h
  obtain ⟨after, _, hresult, hset⟩ := bind_eq_ok h
  obtain ⟨hwrite, rfl⟩ := ofResult_eq_ok hresult
  cases hset
  exact ⟨after, hwrite, rfl⟩

/-- A file that cannot be written leaves everything as it is. -/
theorem write_eq_error {path : Path} {text : String} {e : FileError}
    (h : write path text world = (.error e, world')) :
    world.files.write path text.toUTF8 = .error e ∧ world' = world := by
  change (ofResult id (world.files.write path text.toUTF8) >>= setFiles) world = (.error e, world') at h
  rcases bind_eq_error h with hresult | ⟨after, _, _, hset⟩
  · obtain ⟨_, hwrite, rfl, rfl⟩ := ofResult_eq_error hresult
    exact ⟨hwrite, rfl⟩
  · cases hset

theorem write_of_ok {path : Path} {text : String} {after : FileSystem}
    (h : world.files.write path text.toUTF8 = .ok after) :
    write path text world = (.ok (), { world with files := after }) := by
  show (ofResult id (world.files.write path text.toUTF8) >>= setFiles) world = _
  rw [h]
  rfl

/-- Making directories leaves the files that making them comes to, whether or not all of them could be made. -/
theorem makeDirectories_eq {path : Path} {result : Except FileError Unit}
    (h : makeDirectories path world = (result, world')) :
    world'.files = (world.files.makeDirectories path).1 ∧
      ∀ fault, result = .error fault ↔ (world.files.makeDirectories path).2 = some fault := by
  obtain ⟨changed, error?, hmake⟩ : ∃ changed error?, world.files.makeDirectories path = (changed, error?) :=
    ⟨_, _, rfl⟩
  have hfiles : (files : Run FileError FileSystem) world = (.ok world.files, world) := rfl
  rw [makeDirectories, bind_of_ok hfiles, hmake] at h
  rw [hmake]
  cases error? with
  | none =>
    cases h
    exact ⟨rfl, by simp⟩
  | some fault =>
    cases h
    exact ⟨rfl, by simp⟩

theorem makeDirectories_of_fault {path : Path} {changed : FileSystem} {fault : FileError}
    (h : world.files.makeDirectories path = (changed, some fault)) :
    makeDirectories path world = (.error fault, { world with files := changed }) := by
  have hfiles : (files : Run FileError FileSystem) world = (.ok world.files, world) := rfl
  rw [makeDirectories, bind_of_ok hfiles, h]
  rfl

/-! ## Actions that only read -/

/-- Two actions give the same result, the first on some files and the second on others, whatever the logs are,
and change nothing. -/
def Alike (first second : Run ε α) (files files' : FileSystem) : Prop :=
  ∀ log log' : List LogEntry, (first ⟨files, log⟩).1 = (second ⟨files', log'⟩).1
    ∧ (first ⟨files, log⟩).2.files = files ∧ (second ⟨files', log'⟩).2.files = files'

namespace Alike

theorem throw (e : ε) :
    Alike (MonadExcept.throw e : Run ε α) (MonadExcept.throw e) files files' :=
  fun _ _ => ⟨rfl, rfl, rfl⟩

theorem pure (a : α) : Alike (Pure.pure a : Run ε α) (Pure.pure a) files files' :=
  fun _ _ => ⟨rfl, rfl, rfl⟩

theorem report (entries entries' : List LogEntry) :
    Alike (Run.report entries : Run ε Unit) (Run.report entries') files files' :=
  fun _ _ => ⟨rfl, rfl, rfl⟩

theorem ofResult {wrap : ε' → ε} {result result' : Except ε' α} (h : result = result') :
    Alike (Run.ofResult wrap result) (Run.ofResult wrap result') files files' := by
  subst h
  cases result <;> exact fun _ _ => ⟨rfl, rfl, rfl⟩

/-- Looking at the files gives different ones, so what follows is compared on these. -/
theorem ofFiles {f f' : FileSystem → Run ε α} (h : Alike (f files) (f' files') files files') :
    Alike (Run.files >>= f) (Run.files >>= f') files files' := h

theorem bind {first second : Run ε α} {f f' : α → Run ε β} (hparts : Alike first second files files')
    (hrest : ∀ a, Alike (f a) (f' a) files files') :
    Alike (first >>= f) (second >>= f') files files' := by
  intro log log'
  obtain ⟨hresult, hfirst, hsecond⟩ := hparts log log'
  change (ExceptT.bindCont f (first ⟨files, log⟩).1 (first ⟨files, log⟩).2).1
      = (ExceptT.bindCont f' (second ⟨files', log'⟩).1 (second ⟨files', log'⟩).2).1
    ∧ (ExceptT.bindCont f (first ⟨files, log⟩).1 (first ⟨files, log⟩).2).2.files = files
    ∧ (ExceptT.bindCont f' (second ⟨files', log'⟩).1 (second ⟨files', log'⟩).2).2.files = files'
  rw [← hresult]
  cases (first ⟨files, log⟩).1 with
  | error e => exact ⟨rfl, hfirst, hsecond⟩
  | ok a =>
    -- the parts have left the files alone, so the rest starts on the same ones
    have hstep := hrest a (first ⟨files, log⟩).2.log (second ⟨files', log'⟩).2.log
    have hworld : (first ⟨files, log⟩).2 = ⟨files, (first ⟨files, log⟩).2.log⟩ :=
      congrArg (World.mk · _) hfirst
    have hworld' : (second ⟨files', log'⟩).2 = ⟨files', (second ⟨files', log'⟩).2.log⟩ :=
      congrArg (World.mk · _) hsecond
    rw [hworld, hworld']
    exact hstep

theorem ite {c : Bool} {first second first' second' : Run ε α} (hyes : Alike first second files files')
    (hno : Alike first' second' files files') :
    Alike (if c then first else first') (if c then second else second') files files' := by
  cases c with
  | true => exact hyes
  | false => exact hno

theorem mapError {wrap : ε' → ε} {first second : Run ε' α} (h : Alike first second files files') :
    Alike (Run.mapError wrap first) (Run.mapError wrap second) files files' := by
  intro log log'
  obtain ⟨hresult, hfirst, hsecond⟩ := h log log'
  unfold Run.mapError
  cases hrun : first ⟨files, log⟩ with
  | mk result after =>
    cases hrun' : second ⟨files', log'⟩ with
    | mk result' after' =>
      rw [hrun] at hresult hfirst
      rw [hrun'] at hresult hsecond
      cases hresult
      cases result <;> exact ⟨rfl, hfirst, hsecond⟩

/-- An action that only reads leaves the files as they are. -/
theorem files_eq {action : Run ε α} (h : ∀ files, Alike action action files files)
    {result : Except ε α} (hrun : action world = (result, world')) : world'.files = world.files := by
  have hkept := (h world.files world.log world.log).2.1
  rw [show (⟨world.files, world.log⟩ : World) = world from rfl, hrun] at hkept
  exact hkept

/-- The result of an action that only reads depends on the files alone. -/
theorem fst_eq {action : Run ε α} (h : ∀ files, Alike action action files files) (hfiles : world.files = world'.files) :
    (action world).1 = (action world').1 := by
  obtain ⟨files, log⟩ := world
  obtain ⟨files', log'⟩ := world'
  cases hfiles
  exact (h files log log').1

end Alike

/-! ## Effects -/

/-- Whether the files before an action and those after it are related, whatever comes of the action. -/
def Effect (related : FileSystem → FileSystem → Prop) (action : Run ε α) (world : World) : Prop :=
  related world.files (action world).2.files

section Effect

variable {related : FileSystem → FileSystem → Prop}

/-- The effect of an action in two parts, where the second part may use what comes of the first. -/
theorem effect_bind {action : Run ε α} {f : α → Run ε β}
    (htrans : ∀ {before between after}, related before between → related between after → related before after)
    (hfirst : action.Effect related world)
    (hrest : ∀ a between, action world = (.ok a, between) → (f a).Effect related between) :
    (action >>= f).Effect related world := by
  unfold Effect at hfirst ⊢
  cases hrun : action world with
  | mk result between =>
    rw [hrun] at hfirst
    cases result with
    | ok a =>
      rw [bind_of_ok hrun]
      exact htrans hfirst (hrest a between hrun)
    | error e =>
      rw [bind_of_error hrun]
      exact hfirst

theorem effect_mapError {wrap : ε' → ε} {action : Run ε' α} (h : action.Effect related world) :
    (mapError wrap action).Effect related world := by
  unfold Effect at h ⊢
  cases hrun : action world with
  | mk result between =>
    rw [hrun] at h
    cases result with
    | ok a => rwa [mapError_of_ok hrun]
    | error e => rwa [mapError_of_error hrun]

/-- An action that only reads has every effect that changing nothing has. -/
theorem effect_of_alike {action : Run ε α} (hrefl : ∀ files, related files files)
    (h : ∀ files, Alike action action files files) : action.Effect related world := by
  have hkept : (action world).2.files = world.files := Alike.files_eq h (Prod.ext rfl rfl)
  unfold Effect
  rw [hkept]
  exact hrefl world.files

theorem effect_write {path : Path} {text : String} (hrefl : ∀ files, related files files)
    (h : ∀ after, world.files.write path text.toUTF8 = .ok after → related world.files after) :
    (write path text).Effect related world := by
  unfold Effect
  cases hrun : write path text world with
  | mk result after =>
    cases result with
    | ok u =>
      obtain ⟨files, hwrite, rfl⟩ := write_eq_ok hrun
      exact h files hwrite
    | error e =>
      rw [(write_eq_error hrun).2]
      exact hrefl world.files

theorem effect_makeDirectories {path : Path} (h : related world.files (world.files.makeDirectories path).1) :
    (makeDirectories path).Effect related world := by
  unfold Effect
  cases hrun : makeDirectories path world with
  | mk result after =>
    rw [(makeDirectories_eq hrun).1]
    exact h

end Effect

/-! ## Sorts of errors -/

/-- Whether an action fails with an error of a sort. -/
def FailsWith (sort : ε → Prop) (action : Run ε α) (world : World) : Prop :=
  ∃ e, (action world).1 = .error e ∧ sort e

section FailsWith

variable {sort : ε → Prop}

theorem failsWith_bind {action : Run ε α} {f : α → Run ε β} :
    (action >>= f).FailsWith sort world ↔
      action.FailsWith sort world ∨
        ∃ a between, action world = (.ok a, between) ∧ (f a).FailsWith sort between := by
  constructor
  · rintro ⟨e, he, hsort⟩
    rcases bind_eq_error (Prod.ext he rfl) with hfirst | ⟨a, between, hfirst, hrest⟩
    · exact .inl ⟨e, by rw [hfirst], hsort⟩
    · exact .inr ⟨a, between, hfirst, e, by rw [hrest], hsort⟩
  · rintro (⟨e, he, hsort⟩ | ⟨a, between, hfirst, e, he, hsort⟩)
    · exact ⟨e, by rw [bind_of_error (Prod.ext he rfl)], hsort⟩
    · exact ⟨e, by rw [bind_of_ok hfirst, he], hsort⟩

theorem failsWith_mapError {wrap : ε' → ε} {action : Run ε' α} :
    (mapError wrap action).FailsWith sort world ↔ action.FailsWith (fun e => sort (wrap e)) world := by
  constructor
  · rintro ⟨e, he, hsort⟩
    obtain ⟨e', he', rfl⟩ := mapError_eq_error (Prod.ext he rfl)
    exact ⟨e', by rw [he'], hsort⟩
  · rintro ⟨e, he, hsort⟩
    exact ⟨wrap e, by rw [mapError_of_error (Prod.ext he rfl)], hsort⟩

theorem failsWith_ofResult {wrap : ε' → ε} {result : Except ε' α} :
    (ofResult wrap result).FailsWith sort world ↔ ∃ e, result = .error e ∧ sort (wrap e) := by
  constructor
  · rintro ⟨e, he, hsort⟩
    obtain ⟨e', hresult, rfl, -⟩ := ofResult_eq_error (Prod.ext he rfl)
    exact ⟨e', hresult, hsort⟩
  · rintro ⟨e, rfl, hsort⟩
    exact ⟨wrap e, rfl, hsort⟩

theorem failsWith_files_bind {f : FileSystem → Run ε β} :
    (Run.files >>= f).FailsWith sort world ↔ (f world.files).FailsWith sort world := Iff.rfl

theorem failsWith_report_bind {entries : List LogEntry} {f : Unit → Run ε β} :
    (report entries >>= f).FailsWith sort world ↔
      (f ()).FailsWith sort { world with log := entries.reverse ++ world.log } := Iff.rfl

/-- A result that is known fails, or what follows does. -/
theorem failsWith_ofResult_bind {wrap : ε' → ε} {result : Except ε' α} {f : α → Run ε β} :
    (ofResult wrap result >>= f).FailsWith sort world ↔
      (∃ e, result = .error e ∧ sort (wrap e)) ∨ ∃ a, result = .ok a ∧ (f a).FailsWith sort world := by
  rw [failsWith_bind, failsWith_ofResult]
  refine or_congr_right ⟨?_, ?_⟩
  · rintro ⟨a, between, hresult, hrest⟩
    obtain ⟨hok, hsame⟩ := ofResult_eq_ok hresult
    rw [hsame] at hrest
    exact ⟨a, hok, hrest⟩
  · rintro ⟨a, rfl, hrest⟩
    exact ⟨a, world, rfl, hrest⟩

theorem not_failsWith_pure (a : α) : ¬ (pure a : Run ε α).FailsWith sort world := by
  rintro ⟨e, he, -⟩
  cases he

/-- What is made of a result makes no difference. -/
theorem failsWith_bind_pure {action : Run ε α} {f : α → β} :
    (action >>= fun a => pure (f a)).FailsWith sort world ↔ action.FailsWith sort world := by
  rw [failsWith_bind]
  refine or_iff_left ?_
  rintro ⟨a, between, -, hdone⟩
  exact not_failsWith_pure _ hdone

theorem failsWith_write {path : Path} {text : String} {sort : FileError → Prop} :
    (write path text).FailsWith sort world ↔
      ∃ e, world.files.write path text.toUTF8 = .error e ∧ sort e := by
  constructor
  · rintro ⟨e, he, hsort⟩
    exact ⟨e, (write_eq_error (Prod.ext he rfl)).1, hsort⟩
  · rintro ⟨e, he, hsort⟩
    have hwrite : (ofResult id (world.files.write path text.toUTF8) >>= setFiles) world = (.error e, world) := by
      rw [he]
      rfl
    exact ⟨e, congrArg Prod.fst hwrite, hsort⟩

end FailsWith

end ResolverWiring.Run
