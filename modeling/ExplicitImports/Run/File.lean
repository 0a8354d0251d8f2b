import ExplicitImports.Disk.Access
import ExplicitImports.Run.Error
import ExplicitImports.Import
import ExplicitImports.Log.Record
import ExplicitImports.Summary

/-!
# One file

A file is read as text, completed, and written back only if something changed
and the run is not dry.  Besides its outcome the work on a file leaves a disk and
the events that happened on the way.
-/

namespace ExplicitImports

/-- What happened to a file. -/
inductive FileEffect where
  | unchanged
  /-- This many imports were completed, or would have been in a dry run. -/
  | completed (imports : Nat)
  deriving DecidableEq, Repr

/-- What happens to files during a run, and what is noted down about it. -/
inductive FileEvent where
  | read (path : Path)
  /-- A write, whether it was carried through or not. -/
  | wrote (path : Path) (complete : Bool)
  | log (record : Log.Record)
  deriving DecidableEq, Repr

/-- The work on one file. -/
structure FileRun where
  result : Except RunError FileEffect
  disk : Disk
  events : List FileEvent

/-- Complete the imports of the file a path leads to. -/
def completeFile (settings : Settings) (path : Path) (disk : Disk) : FileRun :=
  match disk.readText path with
  | .error cause =>
      { result := .error (.io path cause), disk, events := [.read path] }
  | .ok content =>
      let completion := completeImports settings content
      let imports := completion.imports
      if !completion.changesText then
        { result := .ok .unchanged, disk
          events := [.read path, .log (.unchanged path)] }
      else if settings.dryRun then
        { result := .ok (.completed imports), disk
          events := [.read path, .log (.notWritten path imports)] }
      else
        match disk.write path (Utf8.encode completion.text) with
        | (.error cause, disk) =>
            { result := .error (.io path cause), disk
              events := [.read path, .wrote path false] }
        | (.ok (), disk) =>
            { result := .ok (.completed imports), disk
              events := [.read path, .wrote path true, .log (.completed path imports)] }

/-- The log records of the work on a file. -/
def FileRun.log (run : FileRun) : List Log.Record :=
  run.events.filterMap fun
    | .log record => some record
    | _ => none

/-- A dry run writes nothing. -/
theorem disk_completeFile_of_dryRun {settings : Settings} (h : settings.dryRun = true)
    (path : Path) (disk : Disk) : (completeFile settings path disk).disk = disk := by
  unfold completeFile
  split
  · rfl
  · simp only [h, if_true]
    split <;> rfl

/-- Every error of the work on a file names the file as it was given. -/
theorem completeFile_error {settings : Settings} {path : Path} {disk : Disk} {e : RunError}
    (h : (completeFile settings path disk).result = .error e) : ∃ cause, e = .io path cause := by
  unfold completeFile at h
  split at h
  · cases h
    exact ⟨_, rfl⟩
  · dsimp only at h
    split at h
    · cases h
    · split at h
      · cases h
      · split at h
        · cases h
          exact ⟨_, rfl⟩
        · cases h

end ExplicitImports
