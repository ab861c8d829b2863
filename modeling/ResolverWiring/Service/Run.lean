import ResolverWiring.Files.Tree
import ResolverWiring.Service.Log

/-!
# `ResolverWiring.Service.Run` — actions on files

An action reads and changes a file system, reports to a log, and gives a result or fails. What it has
changed stays changed when it fails.
-/

namespace ResolverWiring

open Files

/-- The files that actions work on, and the log, the last entry first. -/
structure World where
  files : FileSystem
  log : List LogEntry
deriving Inhabited

/-- An action that may fail with an error. -/
abbrev Run (ε : Type) := ExceptT ε (StateM World)

namespace Run

variable {ε ε' α : Type}

/-- The files as they are. -/
def files : Run ε FileSystem := return (← get).files

/-- Replaces the files. -/
def setFiles (files : FileSystem) : Run ε Unit := modify fun w => { w with files := files }

/-- Adds entries to the log. -/
def report (entries : List LogEntry) : Run ε Unit :=
  modify fun w => { w with log := entries.reverse ++ w.log }

/-- A result that is known, or an error under a constructor. -/
def ofResult (wrap : ε' → ε) (result : Except ε' α) : Run ε α :=
  match result with
  | .ok a => return a
  | .error e => throw (wrap e)

/-- The same action with its error under a constructor. -/
def mapError (wrap : ε' → ε) (action : Run ε' α) : Run ε α :=
  fun w =>
    match action w with
    | (.ok a, w) => (.ok a, w)
    | (.error e, w) => (.error (wrap e), w)

/-- Writes a file. -/
def write (path : Path) (text : String) : Run FileError Unit := do
  setFiles (← ofResult id ((← files).write path text.toUTF8))

/-- Makes a directory and the directories that lead to it. -/
def makeDirectories (path : Path) : Run FileError Unit := do
  let (changed, error?) := (← files).makeDirectories path
  setFiles changed
  match error? with
  | none => return ()
  | some e => throw e

end Run

end ResolverWiring
