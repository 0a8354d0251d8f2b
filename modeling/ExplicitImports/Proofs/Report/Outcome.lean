import ExplicitImports.Proofs.Run.Steps
import ExplicitImports.Proofs.Run.Work

/-!
# What comes of a step

A step of a walk passes a name by, finds a directory that cannot be listed, or takes up a
file.  Whatever comes of it is an `Outcome`, and the outcome tells what happens in the step:
`Outcome.work` before anything is told, `Outcome.notice` afterwards.

* `work_outcome_completeFile` — the outcome of a file tells what happened to it.
* `fixed?_notice`, `failed?_notice`, `written?_work`, `scanned?_events` — what an outcome
  says of fixes, failures, writes and files taken up is what can be seen of it in the events.
-/

namespace ExplicitImports

open RunM

/-- The file that a callback tells of as fixed. -/
def Callback.fixed? : Callback → Option Fix
  | .fixed file => some file
  | .failed _ | .done _ => none

/-- The failure that a callback tells of. -/
def Callback.failed? : Callback → Option Failure
  | .failed failure => some failure
  | .fixed _ | .done _ => none

/-- What the reporter is told by an event. -/
def Event.called? : Event → Option Callback
  | .called callback => some callback
  | .file _ => none

/-- The file that an event says was written to the end. -/
def Event.written? : Event → Option Path
  | .file (.wrote path true) => some path
  | _ => none

namespace RunState

variable {σ : Type}

/-- The files that the reporter was told of as fixed, in order. -/
def fixed (state : RunState σ) : List Fix :=
  state.callbacks.filterMap Callback.fixed?

/-- The failures that the reporter was told of, in order. -/
def failed (state : RunState σ) : List Failure :=
  state.callbacks.filterMap Callback.failed?

/-- The files that were written to the end, in order. -/
def written (state : RunState σ) : List Path :=
  state.trace.filterMap Event.written?

theorem callbacks_eq (state : RunState σ) :
    state.callbacks = state.trace.filterMap Event.called? := by
  unfold callbacks
  congr 1
  funext event
  cases event <;> rfl

end RunState

/-- An error as it is recorded where a run goes on after it. -/
def RunError.failure (error : RunError) : Failure :=
  { path := error.path?, error := error.message }

/-- What happens about an error under a policy: where errors stop the run, nothing. -/
def RunError.notice (error : RunError) : FailurePolicy → List Event
  | .stop => []
  | .goOn => [.log (.skipping error.message), .called (.failed error.failure)]

/-- What comes of a step of a walk. -/
inductive Outcome where
  /-- A name that is passed by. -/
  | ignored (path : Path)
  /-- A directory that cannot be listed. -/
  | unlisted (path : Path) (cause : IoError)
  /-- A file in which there is nothing to complete. -/
  | unchanged (path : Path)
  /-- A file that was completed, or would have been in a dry run. -/
  | fixed (file : Fix)
  /-- A file that could not be read or, if a write was tried, not be written to the end. -/
  | broken (path : Path) (tried : Bool) (error : RunError)

namespace Outcome

/-- The error that a step came to, if it failed. -/
def error? : Outcome → Option RunError
  | unlisted path cause => some (Traversal.listingError path cause)
  | broken _ _ error => some error
  | ignored _ | unchanged _ | fixed _ => none

/-- The failure that is recorded, where the run goes on after errors. -/
def failure? (policy : FailurePolicy) (outcome : Outcome) : Option Failure :=
  match policy with
  | .stop => none
  | .goOn => outcome.error?.map RunError.failure

/-- The file that was fixed, if one was. -/
def fixed? : Outcome → Option Fix
  | fixed file => some file
  | ignored _ | unlisted .. | unchanged _ | broken .. => none

/-- The file that was taken up, if one was. -/
def scanned? : Outcome → Option Path
  | unchanged path | broken path .. => some path
  | fixed file => some file.path
  | ignored _ | unlisted .. => none

/-- Is this a file in which there was nothing to complete? -/
def isUnchanged : Outcome → Bool
  | unchanged _ => true
  | ignored _ | unlisted .. | fixed _ | broken .. => false

/-- Is this a failure of a file that was taken up, and not one of the walk itself? -/
def isBroken : Outcome → Bool
  | broken .. => true
  | ignored _ | unlisted .. | unchanged _ | fixed _ => false

/-- What happens in a step before anything is told. -/
def work (settings : Settings) : Outcome → List Event
  | ignored path => [.log (.ignored path)]
  | unlisted .. => []
  | unchanged path => [.log (.scanning path), .file (.read path), .log (.unchanged path)]
  | fixed file =>
      [.log (.scanning file.path), .file (.read file.path)] ++
        if settings.dryRun then [.log (.notWritten file.path file.imports)]
        else [.file (.wrote file.path true), .log (.completed file.path file.imports)]
  | broken path tried _ =>
      [.log (.scanning path), .file (.read path)] ++
        if tried then [.file (.wrote path false)] else []

/-- What happens after the work: a fixed file is told, and about a failure it is done what
the policy says. -/
def notice (policy : FailurePolicy) : Outcome → List Event
  | ignored _ | unchanged _ => []
  | fixed file => [.called (.fixed file)]
  | unlisted path cause => (Traversal.listingError path cause).notice policy
  | broken _ _ error => error.notice policy

/-- All that happens in a step. -/
def events (settings : Settings) (outcome : Outcome) : List Event :=
  outcome.work settings ++ outcome.notice settings.onFailure

theorem work_congr {a b : Settings} (hdry : a.dryRun = b.dryRun) (outcome : Outcome) :
    outcome.work a = outcome.work b := by
  cases outcome with
  | ignored path => rfl
  | unlisted path cause => rfl
  | unchanged path => rfl
  | fixed file =>
      unfold work
      rw [hdry]
  | broken path tried error => rfl

section Told

variable (settings : Settings) (policy : FailurePolicy) (outcome : Outcome)

@[simp] theorem called?_work : (outcome.work settings).filterMap Event.called? = [] := by
  cases outcome with
  | ignored path => rfl
  | unlisted path cause => rfl
  | unchanged path => rfl
  | fixed file => cases hdry : settings.dryRun <;> simp [work, hdry, Event.called?]
  | broken path tried error => cases tried <;> simp [work, Event.called?]

/-- Of fixed files a step tells the one it has fixed. -/
@[simp] theorem fixed?_notice : ((outcome.notice policy).filterMap Event.called?).filterMap
    Callback.fixed? = outcome.fixed?.toList := by
  cases outcome with
  | ignored path => rfl
  | unlisted path cause => cases policy <;> rfl
  | unchanged path => rfl
  | fixed file => rfl
  | broken path tried error => cases policy <;> rfl

/-- Of failures a step tells its own, where the run goes on after it. -/
@[simp] theorem failed?_notice : ((outcome.notice policy).filterMap Event.called?).filterMap
    Callback.failed? = (outcome.failure? policy).toList := by
  cases outcome with
  | ignored path => cases policy <;> rfl
  | unlisted path cause => cases policy <;> rfl
  | unchanged path => cases policy <;> rfl
  | fixed file => cases policy <;> rfl
  | broken path tried error => cases policy <;> rfl

@[simp] theorem scanned?_events :
    (outcome.events settings).filterMap Event.scanned? = outcome.scanned?.toList := by
  cases outcome with
  | ignored path => rfl
  | unlisted path cause => cases hpolicy : settings.onFailure <;>
      simp [events, work, notice, RunError.notice, hpolicy, Event.scanned?, scanned?]
  | unchanged path => rfl
  | fixed file => cases hdry : settings.dryRun <;>
      simp [events, work, notice, hdry, Event.scanned?, scanned?]
  | broken path tried error => cases tried <;> cases hpolicy : settings.onFailure <;>
      simp [events, work, notice, RunError.notice, hpolicy, Event.scanned?, scanned?]

end Told

end Outcome

/-- A summary with one more outcome in it. -/
def Summary.count (summary : Summary) : Outcome → Summary
  | .ignored _ => summary
  | .unlisted path cause => summary.addFailure (Traversal.listingError path cause).failure
  | .unchanged _ => summary.countScanned
  | .fixed file => summary.countScanned.addFix file
  | .broken _ _ error => summary.countScanned.addFailure error.failure

/-- What the work on a file comes to. -/
def FileRun.outcome (path : Path) (run : FileRun) : Outcome :=
  match run.result with
  | .ok .unchanged => .unchanged path
  | .ok (.completed imports) => .fixed { path, imports }
  | .error error => .broken path (.wrote path false ∈ run.events) error

section File

variable (settings : Settings) (path : Path) (disk : Disk)

@[simp] theorem scanned?_outcome (run : FileRun) :
    (run.outcome path).scanned? = some path := by
  unfold FileRun.outcome
  split <;> rfl

/-- What comes of a file tells what happened to it. -/
theorem work_outcome_completeFile :
    ((completeFile settings path disk).outcome path).work settings =
      .log (.scanning path) :: (completeFile settings path disk).events.map .file := by
  have hcase := fileCase_completeFile settings path disk
  cases hrun : completeFile settings path disk with
  | mk result next events =>
      rw [hrun] at hcase
      cases hcase with
      | unread hread => simp [FileRun.outcome, Outcome.work]
      | unchanged hread hsame => simp [FileRun.outcome, Outcome.work]
      | unwritten hread himports hpos hdry => simp [FileRun.outcome, Outcome.work, hdry]
      | refused hread hpos hdry hwrite => simp [FileRun.outcome, Outcome.work]
      | written hread himports hpos hdry hwrite => simp [FileRun.outcome, Outcome.work, hdry]

end File

end ExplicitImports
