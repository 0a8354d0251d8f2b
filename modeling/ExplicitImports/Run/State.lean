import ExplicitImports.Run.File
import ExplicitImports.Output.Reporter

/-!
# The state of a run

What a run has to hand and what it has done, and steps that change it.  A step
may end the run with an error; the state then is the one the run ended in, for
nothing that was done is taken back.  The lemmas on `RunM.exec` say what the steps
that others are built from do.
-/

namespace ExplicitImports

/-- What happens during a run. -/
inductive Event where
  | file (event : FileEvent)
  /-- The reporter is told something. -/
  | called (callback : Callback)
  deriving DecidableEq, Repr

/-- A log record as an event of the run. -/
abbrev Event.log (record : Log.Record) : Event :=
  .file (.log record)

/-- What a run has to hand: the disk, what it has done so far, the memory of its
reporter, and everything that has happened, in order. -/
structure RunState (σ : Type) where
  disk : Disk
  summary : Summary
  reporter : σ
  trace : List Event := []

namespace RunState

variable {σ : Type}

/-- The log records of a run. -/
def log (state : RunState σ) : List Log.Record :=
  state.trace.filterMap fun
    | .file (.log record) => some record
    | _ => none

/-- What the reporter was told. -/
def callbacks (state : RunState σ) : List Callback :=
  state.trace.filterMap fun
    | .called callback => some callback
    | _ => none

end RunState

/-- A step of a run, which may end it with an error. -/
abbrev RunM (σ : Type) := ExceptT RunError (StateM (RunState σ))

namespace RunM

variable {σ : Type}

/-- How a step ends from a state, and the state it ends in. -/
def exec {α : Type} (step : RunM σ α) (state : RunState σ) :
    Except RunError α × RunState σ :=
  step.run.run state

/-- The disk as it is now. -/
def disk : RunM σ Disk := do
  return (← get).disk

/-- Note down what has happened. -/
def record (events : List Event) : RunM σ Unit :=
  modify fun state => { state with trace := state.trace ++ events }

/-- Bring the summary up to date. -/
def summarize (update : Summary → Summary) : RunM σ Unit :=
  modify fun state => { state with summary := update state.summary }

/-- A result that does not depend on the state of the run. -/
def ofExcept {α : Type} : Except RunError α → RunM σ α
  | .ok value => return value
  | .error e => throw e

section Exec

variable {α β : Type} (state : RunState σ)

@[simp] theorem exec_pure (value : α) :
    exec (pure value : RunM σ α) state = (.ok value, state) := rfl

@[simp] theorem exec_throw (e : RunError) :
    exec (throw e : RunM σ α) state = (.error e, state) := rfl

@[simp] theorem exec_get : exec (get : RunM σ (RunState σ)) state = (.ok state, state) := rfl

@[simp] theorem exec_set (next : RunState σ) :
    exec (set next : RunM σ Unit) state = (.ok (), next) := rfl

@[simp] theorem exec_modify (update : RunState σ → RunState σ) :
    exec (modify update : RunM σ Unit) state = (.ok (), update state) := rfl

@[simp] theorem exec_disk : exec (disk : RunM σ Disk) state = (.ok state.disk, state) := rfl

@[simp] theorem exec_record (events : List Event) :
    exec (record events) state = (.ok (), { state with trace := state.trace ++ events }) := rfl

@[simp] theorem exec_summarize (update : Summary → Summary) :
    exec (summarize update) state =
      (.ok (), { state with summary := update state.summary }) := rfl

@[simp] theorem exec_ofExcept (result : Except RunError α) :
    exec (ofExcept result) state = (result, state) := by
  cases result <;> rfl

/-- After an error nothing more is done. -/
theorem exec_bind (first : RunM σ α) (rest : α → RunM σ β) :
    exec (first >>= rest) state = match exec first state with
      | (.ok value, next) => exec (rest value) next
      | (.error e, next) => (.error e, next) := by
  change (do
    let result ← first.run
    ExceptT.bindCont rest result : StateM (RunState σ) _).run state = _
  unfold exec
  rw [StateT.run_bind]
  rcases h : first.run.run state with ⟨result, next⟩
  cases result <;> rfl

theorem exec_forM_nil (step : α → RunM σ Unit) :
    exec (([] : List α).forM step) state = (.ok (), state) := rfl

theorem exec_forM_cons (step : α → RunM σ Unit) (item : α) (items : List α) :
    exec ((item :: items).forM step) state = match exec (step item) state with
      | (.ok (), next) => exec (items.forM step) next
      | (.error e, next) => (.error e, next) := by
  rw [List.forM_eq_forM, List.forM_cons, exec_bind]
  rcases exec (step item) state with ⟨result, next⟩
  cases result <;> rfl

end Exec

end RunM

end ExplicitImports
