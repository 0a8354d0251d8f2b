import ExplicitImports.Proofs.Report.Kept
import ExplicitImports.Proofs.Walk.Scanned
import Mathlib.Algebra.Ring.Nat

/-!
# The account of a run

What a run does is the outcomes of its steps, one after another, and then the report of its
summary.  This holds with every reporter, also one that changes the disk while it is told
something.

* `Account`, `Counted` — what happened is what came of the steps, and the summary counts
  them; `Traversal.balanced_settle` keeps both.
* `exists_account` — everything that happens in a run is told by the outcomes of its steps.
* `summary_completeTree` — the summary that a run returns, what its reporter was told and
  what happened agree with each other.
-/

namespace ExplicitImports

open RunM

/-- What happened in the steps of a walk is what came of them, and they were fixes only of
files with imports to complete. -/
structure Account (settings : Settings) (outcomes : List Outcome) (trace : List Event) : Prop
    where
  trace_eq : trace = outcomes.flatMap (Outcome.events settings)
  imports_pos : ∀ file, .fixed file ∈ outcomes → 0 < file.imports

/-- The summary counts what came of the steps, and no step has failed where failures stop
the run. -/
structure Counted (settings : Settings) (outcomes : List Outcome) (summary : Summary) : Prop
    where
  summary_eq : summary = outcomes.foldl Summary.count { dryRun := settings.dryRun }
  error?_eq : settings.onFailure = .stop → ∀ outcome ∈ outcomes, outcome.error? = none

namespace Account

variable {settings : Settings} {outcomes : List Outcome} {trace : List Event}

theorem nil : Account settings [] [] := ⟨rfl, by simp⟩

theorem concat (h : Account settings outcomes trace) {outcome : Outcome}
    (hpos : ∀ file, outcome = .fixed file → 0 < file.imports) :
    Account settings (outcomes ++ [outcome]) (trace ++ outcome.events settings) := by
  refine ⟨by simp [h.trace_eq], ?_⟩
  intro file hfile
  rcases List.mem_append.1 hfile with hbefore | hlast
  · exact h.imports_pos file hbefore
  · exact hpos file (List.mem_singleton.1 hlast).symm

/-- What the reporter was told of fixes are the fixes. -/
theorem fixed?_eq (h : Account settings outcomes trace) :
    (trace.filterMap Event.called?).filterMap Callback.fixed? =
      outcomes.filterMap Outcome.fixed? := by
  rw [h.trace_eq, List.filterMap_flatMap, List.filterMap_flatMap, List.filterMap_eq_flatMap_toList]
  congr 1
  funext outcome
  rw [Outcome.events, List.filterMap_append, Outcome.called?_work, List.nil_append,
    Outcome.fixed?_notice]

/-- What the reporter was told of failures are the failures, where the run goes on after
them. -/
theorem failed?_eq (h : Account settings outcomes trace) :
    (trace.filterMap Event.called?).filterMap Callback.failed? =
      outcomes.filterMap (Outcome.failure? settings.onFailure) := by
  rw [h.trace_eq, List.filterMap_flatMap, List.filterMap_flatMap, List.filterMap_eq_flatMap_toList]
  congr 1
  funext outcome
  rw [Outcome.events, List.filterMap_append, Outcome.called?_work, List.nil_append,
    Outcome.failed?_notice]

theorem scanned?_eq (h : Account settings outcomes trace) :
    trace.filterMap Event.scanned? = outcomes.filterMap Outcome.scanned? := by
  rw [h.trace_eq, List.filterMap_flatMap, List.filterMap_eq_flatMap_toList]
  congr 1
  funext outcome
  rw [Outcome.scanned?_events]

/-- During the walk the reporter is told of fixes and failures only. -/
theorem done_notMem (h : Account settings outcomes trace) (summary : Summary) :
    .done summary ∉ trace.filterMap Event.called? := by
  rw [h.trace_eq, List.filterMap_flatMap, List.mem_flatMap]
  rintro ⟨outcome, -, hdone⟩
  rw [Outcome.events, List.filterMap_append, Outcome.called?_work, List.nil_append] at hdone
  cases outcome with
  | ignored path => simp [Outcome.notice] at hdone
  | unlisted path cause =>
      cases hpolicy : settings.onFailure <;>
        simp [Outcome.notice, RunError.notice, hpolicy, Event.called?] at hdone
  | unchanged path => simp [Outcome.notice] at hdone
  | fixed file => simp [Outcome.notice, Event.called?] at hdone
  | broken path tried error =>
      cases hpolicy : settings.onFailure <;>
        simp [Outcome.notice, RunError.notice, hpolicy, Event.called?] at hdone

theorem imports_pos_of_mem (h : Account settings outcomes trace) {file : Fix}
    (hfile : file ∈ outcomes.filterMap Outcome.fixed?) : 0 < file.imports := by
  obtain ⟨outcome, houtcome, hfixed⟩ := List.mem_filterMap.1 hfile
  cases outcome with
  | fixed other =>
      cases hfixed
      exact h.imports_pos file houtcome
  | ignored path => cases hfixed
  | unlisted path cause => cases hfixed
  | unchanged path => cases hfixed
  | broken path tried error => cases hfixed

end Account

namespace Counted

variable {settings : Settings} {outcomes : List Outcome} {summary : Summary}

theorem nil : Counted settings [] { dryRun := settings.dryRun } := ⟨rfl, by simp⟩

theorem concat (h : Counted settings outcomes summary) {outcome : Outcome}
    (herror : settings.onFailure = .stop → outcome.error? = none) :
    Counted settings (outcomes ++ [outcome]) (summary.count outcome) := by
  refine ⟨by simp [h.summary_eq], ?_⟩
  intro hstop other hother
  rcases List.mem_append.1 hother with hbefore | hlast
  · exact h.error?_eq hstop other hbefore
  · rw [List.mem_singleton.1 hlast]
    exact herror hstop

end Counted

namespace Summary

section Count

variable (summary : Summary) (outcome : Outcome)

theorem fixed_count :
    (summary.count outcome).fixed = summary.fixed ++ outcome.fixed?.toList := by
  cases outcome <;> simp [count, Outcome.fixed?, countScanned, addFailure, addFix]

theorem failures_count :
    (summary.count outcome).failures =
      summary.failures ++ outcome.error?.toList.map RunError.failure := by
  cases outcome <;> simp [count, Outcome.error?, countScanned, addFailure, addFix]

theorem scanned_count :
    (summary.count outcome).scanned = summary.scanned + outcome.scanned?.toList.length := by
  cases outcome <;> simp [count, Outcome.scanned?, countScanned, addFailure, addFix]

theorem imports_count :
    (summary.count outcome).imports =
      summary.imports + UInt64.ofNat (outcome.fixed?.toList.map Fix.imports).sum := by
  cases outcome <;> simp [count, Outcome.fixed?, countScanned, addFailure, addFix]

end Count

variable (outcomes : List Outcome) (summary : Summary)

theorem fixed_foldl_count :
    (outcomes.foldl count summary).fixed = summary.fixed ++ outcomes.filterMap Outcome.fixed? := by
  induction outcomes generalizing summary with
  | nil => simp
  | cons outcome outcomes ih =>
      rw [List.foldl_cons, ih, fixed_count, List.filterMap_cons]
      cases outcome.fixed? <;> simp

theorem failures_foldl_count :
    (outcomes.foldl count summary).failures =
      summary.failures ++ (outcomes.filterMap Outcome.error?).map RunError.failure := by
  induction outcomes generalizing summary with
  | nil => simp
  | cons outcome outcomes ih =>
      rw [List.foldl_cons, ih, failures_count, List.filterMap_cons]
      cases outcome.error? <;> simp

theorem scanned_foldl_count :
    (outcomes.foldl count summary).scanned =
      summary.scanned + (outcomes.filterMap Outcome.scanned?).length := by
  induction outcomes generalizing summary with
  | nil => simp
  | cons outcome outcomes ih =>
      rw [List.foldl_cons, ih, scanned_count, List.filterMap_cons]
      cases outcome.scanned? with
      | none => simp
      | some path =>
          simp
          omega

/-- Imports are added up in 64 bits. -/
theorem imports_foldl_count :
    (outcomes.foldl count summary).imports = summary.imports +
      UInt64.ofNat ((outcomes.filterMap Outcome.fixed?).map Fix.imports).sum := by
  induction outcomes generalizing summary with
  | nil => simp
  | cons outcome outcomes ih =>
      rw [List.foldl_cons, ih, imports_count, List.filterMap_cons]
      cases outcome.fixed? <;> simp [UInt64.add_assoc]

end Summary

/-- Files that were taken up were fixed, could not be processed, or needed no change. -/
theorem Outcome.length_scanned (outcomes : List Outcome) :
    (outcomes.filterMap Outcome.scanned?).length =
      (outcomes.filterMap Outcome.fixed?).length + outcomes.countP Outcome.isBroken +
        outcomes.countP Outcome.isUnchanged := by
  induction outcomes with
  | nil => rfl
  | cons outcome outcomes ih =>
      rw [List.filterMap_cons, List.filterMap_cons, List.countP_cons, List.countP_cons]
      cases outcome <;> simp [scanned?, fixed?, isBroken, isUnchanged] <;> omega

namespace Counted

variable {settings : Settings} {outcomes : List Outcome} {summary : Summary}
  (h : Counted settings outcomes summary)

include h

theorem fixed_eq : summary.fixed = outcomes.filterMap Outcome.fixed? := by
  rw [h.summary_eq, Summary.fixed_foldl_count, List.nil_append]

theorem scanned_eq : summary.scanned = (outcomes.filterMap Outcome.scanned?).length := by
  rw [h.summary_eq, Summary.scanned_foldl_count, Nat.zero_add]

theorem imports_eq : summary.imports.toNat = (summary.fixed.map Fix.imports).sum % 2 ^ 64 := by
  rw [h.fixed_eq, h.summary_eq, Summary.imports_foldl_count, UInt64.zero_add, UInt64.toNat_ofNat']

theorem failures_eq :
    summary.failures = (outcomes.filterMap Outcome.error?).map RunError.failure := by
  rw [h.summary_eq, Summary.failures_foldl_count, List.nil_append]

/-- Where failures stop the run a summary has none, and otherwise it has all. -/
theorem failures_eq_filterMap :
    summary.failures = outcomes.filterMap (Outcome.failure? settings.onFailure) := by
  rw [h.failures_eq, List.map_filterMap]
  apply List.filterMap_congr
  intro outcome houtcome
  cases hpolicy : settings.onFailure with
  | stop =>
      rw [h.error?_eq hpolicy outcome houtcome]
      rfl
  | goOn => rfl

end Counted

/-- The outcomes of the steps so far are all that has happened, and the summary counts
them. -/
def RunState.Balanced {σ : Type} (settings : Settings) (state : RunState σ) : Prop :=
  ∃ outcomes, Account settings outcomes state.trace ∧ Counted settings outcomes state.summary

/-- One more step keeps the balance.  If the reporter ends the run in it, the step has happened
all the same. -/
theorem Traversal.balanced_settle {σ : Type} {traversal : Traversal σ} {state : RunState σ}
    {outcome : Outcome} {next : Disk} (hstate : state.Balanced traversal.settings)
    (hstep : Step traversal.settings state.disk outcome next) :
    Ends (RunState.Balanced traversal.settings)
      (fun _ last => ∃ outcomes, Account traversal.settings outcomes last.trace)
      (exec (traversal.settle outcome) (state.afterWork traversal.settings outcome next)) := by
  obtain ⟨outcomes, haccount, hcounted⟩ := hstate
  have hnext : Account traversal.settings (outcomes ++ [outcome])
      (exec (traversal.settle outcome)
        (state.afterWork traversal.settings outcome next)).2.trace := by
    rw [trace_exec_settle_afterWork]
    exact haccount.concat fun file hfile => hstep.imports_pos hfile
  cases hexec : exec (traversal.settle outcome)
      (state.afterWork traversal.settings outcome next) with
  | mk result last =>
      rw [hexec] at hnext
      cases result with
      | error e => exact ⟨_, hnext⟩
      | ok _ =>
          obtain ⟨hsummary, herror⟩ := traversal.summary_exec_settle (by rw [hexec])
          rw [hexec] at hsummary
          exact ⟨_, hnext, hsummary ▸ hcounted.concat herror⟩

/-- Everything that happens in a run is told by the outcomes of its steps, and perhaps the
report of a summary at the end.  A run that returns a summary has reported it, and it counts
these outcomes. -/
theorem exists_account {σ : Type} (settings : Settings) (reporter : Reporter σ) (memory : σ)
    (disk : Disk) :
    let run := completeTree settings reporter memory disk
    ∃ outcomes walked, Account settings outcomes walked ∧
      (run.final.trace = walked ∨
        ∃ summary, run.final.trace = walked ++ [.called (.done summary)]) ∧
      ∀ summary, run.result = .ok summary →
        run.final.trace = walked ++ [.called (.done summary)] ∧
          Counted settings outcomes summary := by
  intro run
  have hstart : RunState.Balanced settings (.initial settings memory disk : RunState σ) :=
    ⟨[], .nil, .nil⟩
  have hsteps (traversal : Traversal σ) (state : RunState σ) (outcome : Outcome) (next : Disk)
      (hsettings : traversal.settings = settings) (_ : traversal.reporter = reporter)
      (hstate : state.Balanced settings) (hstep : Step settings state.disk outcome next) :
      Ends (RunState.Balanced settings)
        (fun _ last => ∃ outcomes, Account settings outcomes last.trace)
        (exec (traversal.settle outcome) (state.afterWork settings outcome next)) := by
    subst hsettings
    exact Traversal.balanced_settle hstate hstep
  rcases completeTree_cases hsteps hstart with
    ⟨hfinal, e, hresult⟩ | ⟨e, hresult, outcomes, haccount⟩ |
      ⟨state, ⟨outcomes, haccount, hcounted⟩, hfinal, hresult⟩
  · refine ⟨[], [], .nil, .inl (congrArg RunState.trace hfinal), ?_⟩
    intro summary hsummary
    rw [hresult] at hsummary
    cases hsummary
  · refine ⟨outcomes, _, haccount, .inl rfl, ?_⟩
    intro summary hsummary
    rw [hresult] at hsummary
    cases hsummary
  · have htrace : run.final.trace = state.trace ++ [.called (.done state.summary)] :=
      congrArg RunState.trace hfinal
    refine ⟨outcomes, state.trace, haccount, .inr ⟨_, htrace⟩, ?_⟩
    intro summary hsummary
    obtain rfl := TreeRun.ReportedFrom.eq_of_ok ⟨hfinal, hresult⟩ hsummary
    exact ⟨htrace, hcounted⟩

section Run

variable {σ : Type} {settings : Settings} {reporter : Reporter σ} {memory : σ} {disk : Disk}

/-- The failures in the summary that a run returns are those that its reporter was told. -/
theorem failures_eq_failed {summary : Summary}
    (h : (completeTree settings reporter memory disk).result = .ok summary) :
    summary.failures = (completeTree settings reporter memory disk).final.failed := by
  obtain ⟨outcomes, walked, haccount, -, hok⟩ := exists_account settings reporter memory disk
  obtain ⟨htrace, hcounted⟩ := hok summary h
  rw [hcounted.failures_eq_filterMap, RunState.failed, RunState.callbacks_eq, htrace,
    List.filterMap_append, List.filterMap_append, haccount.failed?_eq]
  exact (List.append_nil _).symm

/-- Where failures stop a run, its reporter is told of none, however the run ends. -/
theorem failed_eq_nil (hpolicy : settings.onFailure = .stop) :
    (completeTree settings reporter memory disk).final.failed = [] := by
  obtain ⟨outcomes, walked, haccount, hends, -⟩ := exists_account settings reporter memory disk
  have hnone : (walked.filterMap Event.called?).filterMap Callback.failed? = [] := by
    rw [haccount.failed?_eq, hpolicy]
    exact List.filterMap_eq_nil_iff.2 fun _ _ => rfl
  rw [RunState.failed, RunState.callbacks_eq]
  rcases hends with hwalked | ⟨summary, hreported⟩
  · rw [hwalked, hnone]
  · rw [hreported, List.filterMap_append, List.filterMap_append, hnone]
    rfl

end Run

/-- The summary of a run, the reporter and what happened agree, whatever the reporter does.
When a run returns a summary, the reporter was told of the fixes and the failures in the
summary, each in their order, and then of the summary itself, once; imports are added up in
64 bits, and every fix has some; the files that were taken up are those that were fixed,
those that failed and those that needed no change, failures of the walk apart.  Where
failures stop a run there are none in the summary, and no run tells of one. -/
theorem summary_completeTree {σ : Type} (settings : Settings) (reporter : Reporter σ)
    (memory : σ) (disk : Disk) :
    let run := completeTree settings reporter memory disk
    (∀ summary, run.result = .ok summary →
      ∃ (outcomes : List Outcome) (told : List Callback),
        run.final.trace = outcomes.flatMap (Outcome.events settings) ++ [.called (.done summary)] ∧
        run.final.callbacks = told ++ [.done summary] ∧
        (∀ other, .done other ∉ told) ∧
        told.filterMap Callback.fixed? = summary.fixed ∧
        told.filterMap Callback.failed? = summary.failures ∧
        summary.imports.toNat = (summary.fixed.map Fix.imports).sum % 2 ^ 64 ∧
        (∀ file ∈ summary.fixed, 0 < file.imports) ∧
        summary.failures = (outcomes.filterMap Outcome.error?).map RunError.failure ∧
        summary.scanned = run.final.scanned.length ∧
        summary.scanned = summary.fixed.length + outcomes.countP Outcome.isBroken +
          outcomes.countP Outcome.isUnchanged ∧
        (settings.onFailure = .stop → summary.failures = [])) ∧
    (settings.onFailure = .stop → ∀ failure, .failed failure ∉ run.final.callbacks) := by
  intro run
  obtain ⟨outcomes, walked, haccount, -, hok⟩ := exists_account settings reporter memory disk
  refine ⟨?_, ?_⟩
  · intro summary hsummary
    obtain ⟨htrace, hcounted⟩ := hok summary hsummary
    have hscanned : run.final.scanned = outcomes.filterMap Outcome.scanned? := by
      unfold RunState.scanned
      rw [htrace, List.filterMap_append, haccount.scanned?_eq]
      exact List.append_nil _
    refine ⟨outcomes, walked.filterMap Event.called?, ?_, ?_, haccount.done_notMem, ?_, ?_,
      hcounted.imports_eq, ?_, hcounted.failures_eq, ?_, ?_, ?_⟩
    · rw [htrace, haccount.trace_eq]
    · rw [RunState.callbacks_eq, htrace, List.filterMap_append]
      rfl
    · rw [haccount.fixed?_eq, hcounted.fixed_eq]
    · rw [haccount.failed?_eq, hcounted.failures_eq_filterMap]
    · intro file hfile
      exact haccount.imports_pos_of_mem (hcounted.fixed_eq ▸ hfile)
    · rw [hcounted.scanned_eq, hscanned]
    · rw [hcounted.scanned_eq, hcounted.fixed_eq, Outcome.length_scanned]
    · intro hstop
      rw [failures_eq_failed hsummary, failed_eq_nil hstop]
  · intro hstop failure hfailure
    have hmem : failure ∈ run.final.failed := List.mem_filterMap.2 ⟨_, hfailure, rfl⟩
    rw [failed_eq_nil hstop] at hmem
    cases hmem

/-- On the sample the link `r/b.ts` leads to a file that was fixed before, and `r/c.ts` leads
nowhere. -/
theorem summary_completeTree_sample :
    let run := completeTree sampleSettings .silent () sampleDisk
    let summary : Summary :=
      { dryRun := false, scanned := 4, imports := 2
        fixed := ["r/a/z.ts", "r/a.ts"].map fun path => { path := Path.ofString path, imports := 1 }
        failures := [{ path := some (Path.ofString "r/c.ts"),
                       error := "r/c.ts: No such file or directory (os error 2)" }] }
    run.result = .ok summary ∧
      ∃ outcomes : List Outcome,
        run.final.trace =
          outcomes.flatMap (Outcome.events sampleSettings) ++ [.called (.done summary)] ∧
        outcomes.countP Outcome.isBroken + outcomes.countP Outcome.isUnchanged = 2 := by
  intro run summary
  have hresult : run.result = .ok summary := by
    apply eq_ok_of_toOption
    show (completeTree sampleSettings .silent () sampleDisk).result.toOption = some summary
    rw [completeTree_sample sampleSettings .silent () Reporter.silent_leavesDisk rfl rfl rfl]
    decide +kernel
  obtain ⟨outcomes, told, htrace, -, -, -, -, -, -, -, -, hcount, -⟩ :=
    (summary_completeTree sampleSettings .silent () sampleDisk).1 summary hresult
  have hscanned : 4 = 2 + outcomes.countP Outcome.isBroken + outcomes.countP Outcome.isUnchanged :=
    hcount
  exact ⟨hresult, outcomes, htrace, by omega⟩

end ExplicitImports
