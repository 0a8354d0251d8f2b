import ExplicitImports.Proofs.Report.Outcome
import ExplicitImports.Proofs.Walk.Itinerary

/-!
# Work first, then the reporter

A step of a walk is two things after each other: the work, of which `RunState.afterWork`
says what it does to the state of the run, and `Traversal.settle`, which tells the reporter
or stops the run.

* `exec_scan_eq_settle`, `exec_ignore_eq_settle`, `exec_unlisted_eq_settle` — every step is
  its work and then `settle`.
* `SettleCase`, `settleCase` — what is done about an outcome, in three cases.
* `trace_exec_settle` — what happens is told by the outcome alone: a reporter that refuses
  ends the run, but only after it was told.
* `summary_exec_settle` — a step that does not end the run is counted in the summary.
* `exec_settle_of_neverFails` — if the reporter refuses nothing, the failure policy says
  whether the step ends the run.
-/

namespace ExplicitImports

open RunM

namespace RunState

variable {σ : Type}

/-- The state after the work of a step that has this outcome and leaves this disk. -/
def afterWork (settings : Settings) (outcome : Outcome) (disk : Disk) (state : RunState σ) :
    RunState σ :=
  { state with
    disk
    summary := if outcome.scanned?.isSome then state.summary.countScanned else state.summary
    trace := state.trace ++ outcome.work settings }

/-- During the work of a step nothing is told. -/
theorem callbacks_afterWork (settings : Settings) (outcome : Outcome) (disk : Disk)
    (state : RunState σ) :
    (state.afterWork settings outcome disk).callbacks = state.callbacks := by
  rw [callbacks_eq, callbacks_eq, afterWork, List.filterMap_append, Outcome.called?_work,
    List.append_nil]

/-- The state after the reporter was told something, whatever it answers. -/
def told (reporter : Reporter σ) (callback : Callback) (state : RunState σ) : RunState σ :=
  { state with
    trace := state.trace ++ [.called callback]
    reporter := (reporter.tell callback state.reporter).2
    disk := reporter.touch callback state.disk }

theorem callbacks_told (reporter : Reporter σ) (callback : Callback) (state : RunState σ) :
    (state.told reporter callback).callbacks = state.callbacks ++ [callback] := by
  rw [callbacks_eq, callbacks_eq, told, List.filterMap_append]
  rfl

section Done

variable (reporter : Reporter σ) (summary : Summary) (state : RunState σ)

/-- The report of a summary is about no file. -/
@[simp] theorem fixed_told_done : (state.told reporter (.done summary)).fixed = state.fixed := by
  rw [fixed, callbacks_eq, told, List.filterMap_append, List.filterMap_append, ← callbacks_eq]
  exact List.append_nil _

@[simp] theorem failed_told_done : (state.told reporter (.done summary)).failed = state.failed := by
  rw [failed, callbacks_eq, told, List.filterMap_append, List.filterMap_append, ← callbacks_eq]
  exact List.append_nil _

@[simp] theorem scanned_told_done :
    (state.told reporter (.done summary)).scanned = state.scanned := by
  rw [scanned, told, List.filterMap_append]
  exact List.append_nil _

end Done

end RunState

namespace Traversal

variable {σ : Type} (traversal : Traversal σ)

/-- What is done about the outcome of a step after its work. -/
def settle : Outcome → RunM σ Unit
  | .ignored _ | .unchanged _ => return
  | .fixed file => do
      traversal.tell (.fixed file)
      RunM.summarize (·.addFix file)
  | .unlisted path cause => traversal.fail (listingError path cause)
  | .broken _ _ error => traversal.fail error

theorem conclude_eq_settle (path : Path) (run : FileRun) :
    traversal.conclude path run.result = traversal.settle (run.outcome path) := by
  unfold FileRun.outcome
  cases run.result with
  | error error => rfl
  | ok effect => cases effect <;> rfl

variable {traversal} in
theorem settle_of_error? {outcome : Outcome} {error : RunError}
    (h : outcome.error? = some error) : traversal.settle outcome = traversal.fail error := by
  cases outcome with
  | ignored path => cases h
  | unchanged path => cases h
  | fixed file => cases h
  | unlisted path cause =>
      cases h
      rfl
  | broken path tried found =>
      cases h
      rfl

section Steps

variable (path : Path) (state : RunState σ)

/-- A file is taken up by the work on it and by what is done about its outcome. -/
theorem exec_scan_eq_settle :
    let run := completeFile traversal.settings path state.disk
    exec (traversal.scan path) state =
      exec (traversal.settle (run.outcome path))
        (state.afterWork traversal.settings (run.outcome path) run.disk) := by
  intro run
  have hworked : traversal.worked path state =
      state.afterWork traversal.settings (run.outcome path) run.disk := by
    unfold worked RunState.afterWork
    rw [work_outcome_completeFile]
    simp only [scanned?_outcome, Option.isSome_some, if_true]
    rfl
  rw [exec_scan, conclude_eq_settle, hworked]

/-- A name that is passed by is noted down, and no more is done about it. -/
theorem exec_ignore_eq_settle :
    exec (record [.log (.ignored path)]) state =
      exec (traversal.settle (.ignored path))
        (state.afterWork traversal.settings (.ignored path) state.disk) := rfl

/-- A directory that cannot be listed takes no work. -/
theorem exec_unlisted_eq_settle (cause : IoError) :
    exec (traversal.fail (listingError path cause)) state =
      exec (traversal.settle (.unlisted path cause))
        (state.afterWork traversal.settings (.unlisted path cause) state.disk) := by
  have hnothing : state.afterWork traversal.settings (.unlisted path cause) state.disk = state := by
    simp [RunState.afterWork, Outcome.work, Outcome.scanned?]
  rw [hnothing]
  rfl

end Steps

section Settle

variable {traversal : Traversal σ} (outcome : Outcome) (state : RunState σ)

/-- What is told is in the summary only if the reporter does not refuse it. -/
theorem exec_tell_summarize (traversal : Traversal σ) (callback : Callback)
    (update : Summary → Summary) :
    exec (do traversal.tell callback; summarize update) state =
      match (traversal.reporter.tell callback state.reporter).1 with
      | .ok () =>
          (.ok (), { state.told traversal.reporter callback with summary := update state.summary })
      | .error cause => (.error (.output cause), state.told traversal.reporter callback) := by
  rw [exec_bind, exec_tell]
  cases (traversal.reporter.tell callback state.reporter).1 <;> rfl

/-- Where failures are passed over, an error is noted down, told and added to the summary. -/
theorem exec_fail_eq_tell (hpolicy : traversal.settings.onFailure = .goOn) (error : RunError) :
    exec (traversal.fail error) state =
      exec (do
        traversal.tell (.failed error.failure)
        summarize (·.addFailure error.failure))
        { state with trace := state.trace ++ [.log (.skipping error.message)] } := by
  simp only [fail, hpolicy]
  rw [exec_bind, exec_record]
  rfl

theorem trace_exec_tell_summarize (callback : Callback) (update : Summary → Summary) :
    (exec (do traversal.tell callback; summarize update) state).2.trace =
      state.trace ++ [.called callback] := by
  rw [exec_tell_summarize]
  split <;> rfl

theorem trace_exec_fail (error : RunError) :
    (exec (traversal.fail error) state).2.trace =
      state.trace ++ error.notice traversal.settings.onFailure := by
  cases hpolicy : traversal.settings.onFailure with
  | stop =>
      rw [exec_fail_of_stop hpolicy]
      simp [RunError.notice]
  | goOn =>
      rw [exec_fail_eq_tell state hpolicy, trace_exec_tell_summarize]
      simp [RunError.notice]

/-- What happens after the work is what the outcome says, also if the reporter refuses it. -/
theorem trace_exec_settle :
    (exec (traversal.settle outcome) state).2.trace =
      state.trace ++ outcome.notice traversal.settings.onFailure := by
  cases outcome with
  | ignored path => simp [settle, Outcome.notice]
  | unchanged path => simp [settle, Outcome.notice]
  | fixed file => exact trace_exec_tell_summarize state _ _
  | unlisted path cause => exact trace_exec_fail state _
  | broken path tried error => exact trace_exec_fail state _

/-- All that happens in a step. -/
theorem trace_exec_settle_afterWork (disk : Disk) :
    (exec (traversal.settle outcome) (state.afterWork traversal.settings outcome disk)).2.trace =
      state.trace ++ outcome.events traversal.settings := by
  rw [trace_exec_settle]
  simp [RunState.afterWork, Outcome.events]

/-- An error that does not end the run is in the summary. -/
theorem summary_exec_fail {error : RunError}
    (h : (exec (traversal.fail error) state).1 = .ok ()) :
    (exec (traversal.fail error) state).2.summary = state.summary.addFailure error.failure ∧
      traversal.settings.onFailure = .goOn := by
  cases hpolicy : traversal.settings.onFailure with
  | stop =>
      rw [exec_fail_of_stop hpolicy] at h
      cases h
  | goOn =>
      rw [exec_fail_eq_tell state hpolicy, exec_tell_summarize] at h ⊢
      split at h
      · exact ⟨rfl, rfl⟩
      · cases h

/-- A step that does not end the run is counted in the summary, and where failures stop the
run it has not failed. -/
theorem summary_exec_settle {outcome : Outcome} {disk : Disk} {state : RunState σ}
    (h : (exec (traversal.settle outcome)
      (state.afterWork traversal.settings outcome disk)).1 = .ok ()) :
    (exec (traversal.settle outcome)
        (state.afterWork traversal.settings outcome disk)).2.summary =
        state.summary.count outcome ∧
      (traversal.settings.onFailure = .stop → outcome.error? = none) := by
  cases outcome with
  | ignored path => exact ⟨rfl, fun _ => rfl⟩
  | unchanged path => exact ⟨rfl, fun _ => rfl⟩
  | fixed file =>
      refine ⟨?_, fun _ => rfl⟩
      unfold settle at h ⊢
      rw [exec_tell_summarize] at h ⊢
      split at h
      · rfl
      · cases h
  | unlisted path cause =>
      obtain ⟨hsummary, hpolicy⟩ := summary_exec_fail _ h
      refine ⟨hsummary, ?_⟩
      intro hstop
      rw [hstop] at hpolicy
      cases hpolicy
  | broken path tried error =>
      obtain ⟨hsummary, hpolicy⟩ := summary_exec_fail _ h
      refine ⟨hsummary, ?_⟩
      intro hstop
      rw [hstop] at hpolicy
      cases hpolicy

theorem onlyTold_settle (hdisk : traversal.reporter.LeavesDisk) :
    state.OnlyTold (exec (traversal.settle outcome) state).2 := by
  cases outcome with
  | ignored path => exact .refl state
  | unchanged path => exact .refl state
  | fixed file => exact onlyTold_conclude hdisk file.path (.ok (.completed file.imports)) state
  | unlisted path cause => exact onlyTold_fail hdisk _ state
  | broken path tried error => exact onlyTold_fail hdisk error state

/-- If the reporter refuses nothing, a step ends the run only with an error of its own, and
only where errors are to stop it. -/
theorem exec_settle_of_neverFails (hreporter : traversal.reporter.NeverFails) :
    (exec (traversal.settle outcome) state).1 =
      match traversal.settings.onFailure, outcome.error? with
      | .stop, some error => .error error
      | _, _ => .ok () := by
  have htell (file : Fix) : (exec (traversal.settle (.fixed file)) state).1 = .ok () :=
    exec_bind_ok (exec_tell_of_neverFails hreporter _ state) fun _ => rfl
  cases hpolicy : traversal.settings.onFailure with
  | stop =>
      cases outcome with
      | ignored path => rfl
      | unchanged path => rfl
      | fixed file => exact htell file
      | unlisted path cause =>
          exact congrArg Prod.fst (exec_fail_of_stop hpolicy (listingError path cause) state)
      | broken path tried error =>
          exact congrArg Prod.fst (exec_fail_of_stop hpolicy error state)
  | goOn =>
      cases outcome with
      | ignored path => rfl
      | unchanged path => rfl
      | fixed file => exact htell file
      | unlisted path cause => exact exec_fail_of_goOn hpolicy hreporter _ state
      | broken path tried error => exact exec_fail_of_goOn hpolicy hreporter error state

/-- What is done about the outcome of a step: nothing, or the run is stopped, or the reporter is
told of a fix or a failure, which is counted then. -/
inductive SettleCase (traversal : Traversal σ) (outcome : Outcome) (state : RunState σ) : Prop
  | silent (hexec : exec (traversal.settle outcome) state = (.ok (), state))
  | stopped {error : RunError} (hpolicy : traversal.settings.onFailure = .stop)
      (herror : outcome.error? = some error)
      (hexec : exec (traversal.settle outcome) state = (.error error, state))
  | told {callback : Callback} {update : Summary → Summary} {noted : List Event}
      (hcallback : ∀ summary, callback ≠ .done summary)
      (hnoted : noted.filterMap Event.called? = [])
      (hexec : exec (traversal.settle outcome) state =
        exec (do traversal.tell callback; summarize update)
          { state with trace := state.trace ++ noted })

theorem settleCase : SettleCase traversal outcome state := by
  cases herror : outcome.error? with
  | none =>
      cases outcome with
      | ignored path => exact .silent rfl
      | unchanged path => exact .silent rfl
      | fixed file =>
          have hexec : exec (traversal.settle (.fixed file)) state =
              exec (do traversal.tell (.fixed file); summarize (·.addFix file))
                { state with trace := state.trace ++ [] } := by
            rw [List.append_nil]
            rfl
          exact .told (by simp) List.filterMap_nil hexec
      | unlisted path cause => cases herror
      | broken path tried error => cases herror
  | some error =>
      have hfail := traversal.settle_of_error? herror
      cases hpolicy : traversal.settings.onFailure with
      | stop => exact .stopped hpolicy herror (by rw [hfail, exec_fail_of_stop hpolicy])
      | goOn =>
          have hexec := exec_fail_eq_tell state hpolicy error
          rw [← hfail] at hexec
          exact .told (by simp) rfl hexec

/-- Until the summary is reported the reporter is told of fixes and failures alone. -/
theorem remembers_settle {keeps : σ → Prop}
    (h : ∀ callback memory, (∀ summary, callback ≠ .done summary) → keeps memory →
      keeps (traversal.reporter.tell callback memory).2) (hstate : keeps state.reporter) :
    keeps (exec (traversal.settle outcome) state).2.reporter := by
  cases traversal.settleCase outcome state with
  | silent hexec =>
      rw [hexec]
      exact hstate
  | stopped hpolicy herror hexec =>
      rw [hexec]
      exact hstate
  | told hcallback hnoted hexec =>
      rw [hexec, exec_tell_summarize]
      split <;> exact h _ _ hcallback hstate

/-- Where failures are passed over, a step ends the run only if the reporter refuses something. -/
theorem exec_settle_of_accepts (hpolicy : traversal.settings.onFailure = .goOn)
    (h : ∀ callback, (∀ summary, callback ≠ .done summary) →
      (traversal.reporter.tell callback state.reporter).1 = .ok ()) :
    (exec (traversal.settle outcome) state).1 = .ok () := by
  cases traversal.settleCase outcome state with
  | silent hexec => rw [hexec]
  | stopped hstop herror hexec =>
      rw [hpolicy] at hstop
      cases hstop
  | @told callback update noted hcallback hnoted hexec =>
      rw [hexec, exec_tell_summarize]
      simp only [h callback hcallback]

section Told

variable (disk : Disk)

theorem fixed_exec_settle :
    (exec (traversal.settle outcome) (state.afterWork traversal.settings outcome disk)).2.fixed =
      state.fixed ++ outcome.fixed?.toList := by
  unfold RunState.fixed
  rw [RunState.callbacks_eq, RunState.callbacks_eq, trace_exec_settle_afterWork, Outcome.events]
  simp only [List.filterMap_append, Outcome.called?_work, Outcome.fixed?_notice,
    List.nil_append]

theorem failed_exec_settle :
    (exec (traversal.settle outcome) (state.afterWork traversal.settings outcome disk)).2.failed =
      state.failed ++ (outcome.failure? traversal.settings.onFailure).toList := by
  unfold RunState.failed
  rw [RunState.callbacks_eq, RunState.callbacks_eq, trace_exec_settle_afterWork, Outcome.events]
  simp only [List.filterMap_append, Outcome.called?_work, Outcome.failed?_notice,
    List.nil_append]

theorem scanned_exec_settle :
    (exec (traversal.settle outcome) (state.afterWork traversal.settings outcome disk)).2.scanned =
      state.scanned ++ outcome.scanned?.toList := by
  unfold RunState.scanned
  rw [trace_exec_settle_afterWork, List.filterMap_append, Outcome.scanned?_events]

end Told

end Settle

end Traversal

namespace Visit

/-- What comes of a visit. -/
def outcome (settings : Settings) (disk : Disk) : Visit → Outcome
  | scan names =>
      (completeFile settings (settings.root.below names) disk).outcome (settings.root.below names)
  | passBy names => .ignored (settings.root.below names)
  | refuse names cause => .unlisted (settings.root.below names) cause

/-- The disk that the work of a visit leaves. -/
def diskAfter (settings : Settings) (disk : Disk) : Visit → Disk
  | scan names => (completeFile settings (settings.root.below names) disk).disk
  | passBy _ | refuse .. => disk

/-- A visit is its work and what is done about its outcome then. -/
theorem exec_perform_eq_settle {σ : Type} (traversal : Traversal σ) (visit : Visit)
    (state : RunState σ) :
    exec (traversal.perform visit) state =
      exec (traversal.settle (visit.outcome traversal.settings state.disk))
        (state.afterWork traversal.settings (visit.outcome traversal.settings state.disk)
          (visit.diskAfter traversal.settings state.disk)) := by
  cases visit with
  | scan names => exact traversal.exec_scan_eq_settle _ state
  | passBy names => exact traversal.exec_ignore_eq_settle _ state
  | refuse names cause => exact traversal.exec_unlisted_eq_settle _ state cause

end Visit

end ExplicitImports
