import ExplicitImports.Proofs.Report.Account

/-!
# The first failure

Where failures stop a run, the run is the one that goes on after failures, cut at the first
of them.

* `Traversal.Alike` — traversals that differ in what they do about failures, and in nothing
  else.
* `exec_perform_of_alike`, `exec_visits_of_alike` — such traversals do the same up to the
  first failure, and come to it in the same state.
* `CutAt`, `failed_eq_nil_or_cutAt` — so do whole runs; `exec_stop`, `exec_goOn` and
  `exec_refused` say how they go from there.
* `stopped_completeTree` — a run that is stopped by its first failure against the run that
  goes on after it: results, callbacks, and the disk at that moment.
-/

namespace ExplicitImports

open RunM

/-- A reporter that refuses to be told of a failure and takes in everything else as
`reporter` does. -/
def Reporter.refusingFailures {σ : Type} (reporter : Reporter σ) (cause : IoError) :
    Reporter σ where
  tell callback memory :=
    match callback with
    | .failed _ => (.error cause, memory)
    | .fixed _ | .done _ => reporter.tell callback memory
  touch := reporter.touch

/-- Two reporters take in fixes alike, and do the same to the disk. -/
structure Reporter.Alike {σ : Type} (reporter other : Reporter σ) : Prop where
  tell : ∀ file, other.tell (.fixed file) = reporter.tell (.fixed file)
  touch : other.touch = reporter.touch

theorem Reporter.Alike.refl {σ : Type} (reporter : Reporter σ) : reporter.Alike reporter :=
  ⟨fun _ => rfl, rfl⟩

theorem Reporter.alike_refusingFailures {σ : Type} (reporter : Reporter σ) (cause : IoError) :
    reporter.Alike (reporter.refusingFailures cause) :=
  ⟨fun _ => rfl, rfl⟩

/-- From one state to the next the reporter was told of fixes only. -/
def RunState.ToldFixes {σ : Type} (state next : RunState σ) : Prop :=
  ∃ fixes : List Fix, next.callbacks = state.callbacks ++ fixes.map .fixed

namespace RunState.ToldFixes

variable {σ : Type} {state next last : RunState σ}

theorem refl (state : RunState σ) : ToldFixes state state := ⟨[], by simp⟩

theorem trans (h : ToldFixes state next) (h' : ToldFixes next last) : ToldFixes state last := by
  obtain ⟨fixes, hfixes⟩ := h
  obtain ⟨later, hlater⟩ := h'
  exact ⟨fixes ++ later, by rw [hlater, hfixes, List.map_append, List.append_assoc]⟩

theorem failed_eq (h : ToldFixes state next) : next.failed = state.failed := by
  obtain ⟨fixes, hfixes⟩ := h
  have hnone : (fixes.map Callback.fixed).filterMap Callback.failed? = [] := by
    rw [List.filterMap_map, List.filterMap_eq_nil_iff]
    exact fun _ _ => rfl
  rw [failed, hfixes, List.filterMap_append, hnone, List.append_nil, failed]

/-- Where a failure was told after nothing but fixes, it is the first one, and the fixes
are what was told before. -/
theorem told_of_failure (h : ToldFixes state next) (hstart : state.callbacks = [])
    {error : RunError} (hnext : next.trace ++ error.notice .goOn <+: last.trace) :
    (∃ others, last.failed = error.failure :: others) ∧
      next.callbacks = last.callbacks.takeWhile (·.failed?.isNone) ∧
      ∀ callback ∈ next.callbacks, ∃ file, callback = .fixed file := by
  obtain ⟨fixes, hfixes⟩ := h
  obtain ⟨later, hlater⟩ := hnext
  rw [hstart, List.nil_append] at hfixes
  have htold : last.callbacks =
      fixes.map .fixed ++ .failed error.failure :: later.filterMap Event.called? := by
    rw [callbacks_eq, ← hlater, List.filterMap_append, List.filterMap_append, ← callbacks_eq,
      hfixes, List.append_assoc]
    rfl
  have hquiet : ∀ callback ∈ fixes.map Callback.fixed, callback.failed?.isNone = true := by
    simp [Callback.failed?]
  refine ⟨?_, ?_, ?_⟩
  · have hnone : (fixes.map Callback.fixed).filterMap Callback.failed? = [] := by
      rw [List.filterMap_eq_nil_iff]
      exact fun callback hcallback => Option.isNone_iff_eq_none.1 (hquiet callback hcallback)
    rw [failed, htold, List.filterMap_append, hnone]
    exact ⟨_, rfl⟩
  · rw [hfixes, htold, List.takeWhile_append_of_pos hquiet]
    exact (List.append_nil _).symm
  · intro callback hcallback
    rw [hfixes] at hcallback
    obtain ⟨file, -, hfile⟩ := List.mem_map.1 hcallback
    exact ⟨file, hfile.symm⟩

end RunState.ToldFixes

namespace Traversal

variable {σ : Type} {traversal other : Traversal σ}

/-- Two traversals do the same, except about failures. -/
structure Alike (traversal other : Traversal σ) : Prop where
  root : other.settings.root = traversal.settings.root
  extension : other.settings.extension = traversal.settings.extension
  excludedPrefixes : other.settings.excludedPrefixes = traversal.settings.excludedPrefixes
  dryRun : other.settings.dryRun = traversal.settings.dryRun
  reporter : traversal.reporter.Alike other.reporter

theorem Alike.refl (traversal : Traversal σ) : Alike traversal traversal :=
  ⟨rfl, rfl, rfl, rfl, .refl traversal.reporter⟩

section Alike

variable (h : traversal.Alike other)

include h

/-- The work on a file is the same for both. -/
theorem Alike.completeFile_eq : completeFile other.settings = completeFile traversal.settings :=
  completeFile_congr h.extension h.excludedPrefixes h.dryRun

/-- The work of a visit is the same for both. -/
theorem Alike.exec_perform_eq (visit : Visit) (state : RunState σ) :
    exec (other.perform visit) state =
      exec (other.settle (visit.outcome traversal.settings state.disk))
        (state.afterWork traversal.settings (visit.outcome traversal.settings state.disk)
          (visit.diskAfter traversal.settings state.disk)) := by
  have houtcome : visit.outcome other.settings state.disk =
      visit.outcome traversal.settings state.disk := by
    unfold Visit.outcome
    rw [h.completeFile_eq, h.root]
  have hafter : visit.diskAfter other.settings state.disk =
      visit.diskAfter traversal.settings state.disk := by
    unfold Visit.diskAfter
    rw [h.completeFile_eq, h.root]
  rw [visit.exec_perform_eq_settle, houtcome, hafter]
  unfold RunState.afterWork
  rw [Outcome.work_congr h.dryRun]

/-- About anything but a failure both do the same. -/
theorem Alike.exec_settle_eq {outcome : Outcome} (hnone : outcome.error? = none)
    (state : RunState σ) :
    exec (other.settle outcome) state = exec (traversal.settle outcome) state := by
  cases outcome with
  | ignored path => rfl
  | unchanged path => rfl
  | fixed file =>
      unfold settle
      rw [exec_tell_summarize, exec_tell_summarize, RunState.told, RunState.told,
        h.reporter.tell file, h.reporter.touch]
  | unlisted path cause => cases hnone
  | broken path tried error => cases hnone

end Alike

section ToldFixes

variable (traversal) (outcome : Outcome) (disk : Disk) (state : RunState σ)

/-- A step that has not failed tells of a fix or of nothing. -/
theorem toldFixes_settle (hnone : outcome.error? = none) :
    state.ToldFixes (exec (traversal.settle outcome)
      (state.afterWork traversal.settings outcome disk)).2 := by
  refine ⟨outcome.fixed?.toList, ?_⟩
  rw [RunState.callbacks_eq, RunState.callbacks_eq, trace_exec_settle_afterWork,
    List.filterMap_append, Outcome.events, List.filterMap_append, Outcome.called?_work]
  cases outcome with
  | ignored path => rfl
  | unchanged path => rfl
  | fixed file => rfl
  | unlisted path cause => cases hnone
  | broken path tried error => cases hnone

end ToldFixes

/-- After the visits no failure is told any more. -/
theorem failed_exec_finish (traversal : Traversal σ) (visits : List Visit) (state : RunState σ) :
    (exec (do
      visits.forM traversal.perform
      traversal.finish) state).2.failed =
      (exec (visits.forM traversal.perform) state).2.failed := by
  rw [exec_bind]
  cases exec (visits.forM traversal.perform) state with
  | mk result next =>
      cases result with
      | error e => rfl
      | ok _ =>
          dsimp only
          rw [exec_finish]
          exact RunState.failed_told_done ..

/-- Traversals that are alike carry out a visit alike, unless it fails; then all of them come
to the failure in the same state.  Until then a fix is told and nothing else. -/
theorem exec_perform_of_alike (traversal : Traversal σ) (visit : Visit) (state : RunState σ) :
    ((∀ other, traversal.Alike other →
        exec (other.perform visit) state = exec (traversal.perform visit) state) ∧
      state.ToldFixes (exec (traversal.perform visit) state).2) ∨
    ∃ (error : RunError) (cut : RunState σ), state.ToldFixes cut ∧
      ∀ other, traversal.Alike other →
        exec (other.perform visit) state = exec (other.fail error) cut := by
  let outcome := visit.outcome traversal.settings state.disk
  let worked := state.afterWork traversal.settings outcome
    (visit.diskAfter traversal.settings state.disk)
  have hvisit (other : Traversal σ) (halike : traversal.Alike other) :
      exec (other.perform visit) state = exec (other.settle outcome) worked :=
    halike.exec_perform_eq visit state
  cases herror : outcome.error? with
  | none =>
      refine .inl ⟨?_, ?_⟩
      · intro other halike
        rw [hvisit other halike, hvisit traversal (.refl traversal),
          halike.exec_settle_eq herror]
      · rw [hvisit traversal (.refl traversal)]
        exact traversal.toldFixes_settle outcome _ state herror
  | some error =>
      refine .inr ⟨error, worked, ?_, ?_⟩
      · exact ⟨[], by rw [RunState.callbacks_afterWork, List.map_nil, List.append_nil]⟩
      · intro other halike
        rw [hvisit other halike, settle_of_error? herror]

/-- Traversals that are alike carry out visits alike, up to the first failure: either there
is none, or all of them come to it in the same state. -/
theorem exec_visits_of_alike (traversal : Traversal σ) (visits : List Visit) (state : RunState σ) :
    ((∀ other, traversal.Alike other →
        exec (visits.forM other.perform) state = exec (visits.forM traversal.perform) state) ∧
      state.ToldFixes (exec (visits.forM traversal.perform) state).2) ∨
    ∃ (error : RunError) (cut : RunState σ) (rest : List Visit), state.ToldFixes cut ∧
      ∀ other, traversal.Alike other →
        exec (visits.forM other.perform) state =
          exec (do other.fail error; rest.forM other.perform) cut := by
  induction visits generalizing state with
  | nil => exact .inl ⟨fun _ _ => by rw [exec_forM_nil, exec_forM_nil], .refl state⟩
  | cons visit visits ih =>
      simp only [List.forM_eq_forM, List.forM_cons]
      rcases traversal.exec_perform_of_alike visit state with
        ⟨hsame, htold⟩ | ⟨error, cut, hcut, hfails⟩
      · cases hexec : exec (traversal.perform visit) state with
        | mk result next =>
            rw [hexec] at htold hsame
            cases result with
            | error e =>
                -- The reporter has refused a fix, which ends all of these runs.
                refine .inl ⟨?_, ?_⟩
                · intro other halike
                  rw [exec_bind, exec_bind, hsame other halike, hexec]
                · rw [exec_bind, hexec]
                  exact htold
            | ok _ =>
                have hnext (other : Traversal σ) (halike : traversal.Alike other) :
                    exec (do other.perform visit; forM visits other.perform) state =
                      exec (forM visits other.perform) next := by
                  rw [exec_bind, hsame other halike]
                rw [hnext traversal (.refl traversal)]
                rcases ih next with ⟨hrest, hlater⟩ | ⟨error, cut, rest, hcut, hrest⟩
                · refine .inl ⟨?_, htold.trans hlater⟩
                  intro other halike
                  rw [hnext other halike]
                  exact hrest other halike
                · refine .inr ⟨error, cut, rest, htold.trans hcut, ?_⟩
                  intro other halike
                  rw [hnext other halike]
                  exact hrest other halike
      · refine .inr ⟨error, cut, visits, hcut, ?_⟩
        intro other halike
        rw [exec_bind, hfails other halike, ← exec_bind]

section Cut

variable {traversal : Traversal σ} (error : RunError) (rest : List Visit) (cut : RunState σ)

/-- Whatever the reporter answers, what is done about the failure happens next. -/
theorem notice_le_exec (hdisk : traversal.reporter.LeavesDisk) :
    cut.trace ++ error.notice traversal.settings.onFailure <+:
      (exec (do
        traversal.fail error
        rest.forM traversal.perform
        traversal.finish) cut).2.trace := by
  rw [← traversal.trace_exec_fail cut error, exec_bind]
  cases exec (traversal.fail error) cut with
  | mk result told =>
      cases result with
      | error e => exact List.prefix_refl _
      | ok _ =>
          dsimp only
          have hlonger := traversal.trace_le_visits hdisk rest told
          rw [exec_bind]
          cases hrest : exec (rest.forM traversal.perform) told with
          | mk result next =>
              rw [hrest] at hlonger
              cases result with
              | error e => exact hlonger
              | ok _ => exact hlonger.trans (onlyTold_finish hdisk next).trace_le

/-- Where the run goes on, the failure is told next, and in the end there is a summary. -/
theorem exec_of_goOn (hpolicy : traversal.settings.onFailure = .goOn)
    (hreporter : traversal.reporter.NeverFails) (hdisk : traversal.reporter.LeavesDisk) :
    let run := exec (do
      traversal.fail error
      rest.forM traversal.perform
      traversal.finish) cut
    (∃ summary, run.1 = .ok summary) ∧ cut.trace ++ error.notice .goOn <+: run.2.trace := by
  intro run
  refine ⟨?_, hpolicy ▸ notice_le_exec error rest cut hdisk⟩
  have hok := exec_fail_of_goOn hpolicy hreporter error cut
  cases hexec : exec (traversal.fail error) cut with
  | mk result told =>
      rw [hexec] at hok
      cases hok
      -- None of the visits that are left ends the run, so it comes to its report.
      have hvisits := traversal.exec_visits_of_goOn hpolicy hreporter rest told
      cases hrest : exec (rest.forM traversal.perform) told with
      | mk result next =>
          rw [hrest] at hvisits
          cases hvisits
          have hrun : run = exec traversal.finish next := by
            show exec _ cut = _
            rw [exec_bind, hexec]
            dsimp only
            rw [exec_bind, hrest]
          refine ⟨next.summary, ?_⟩
          rw [hrun, exec_finish, hreporter]
          rfl

/-- Where the reporter refuses the failure, the run ends with this. -/
theorem exec_of_refused {cause : IoError} (hpolicy : traversal.settings.onFailure = .goOn)
    (hrefused : ∀ failure memory,
      (traversal.reporter.tell (.failed failure) memory).1 = .error cause)
    (hdisk : traversal.reporter.LeavesDisk) :
    let run := exec (do
      traversal.fail error
      rest.forM traversal.perform
      traversal.finish) cut
    run.1 = .error (.output cause) ∧ run.2.trace = cut.trace ++ error.notice .goOn ∧
      run.2.disk = cut.disk := by
  intro run
  have htold := traversal.trace_exec_fail cut error
  have hleft := (onlyTold_fail hdisk error cut).disk
  have hresult : (exec (traversal.fail error) cut).1 = .error (.output cause) := by
    rw [exec_fail_eq_tell cut hpolicy, exec_tell_summarize, hrefused]
  rw [hpolicy] at htold
  cases hexec : exec (traversal.fail error) cut with
  | mk result told =>
      rw [hexec] at htold hleft hresult
      cases hresult
      have hrun : run = (.error (.output cause), told) := by
        show exec _ cut = _
        rw [exec_bind, hexec]
      rw [hrun]
      exact ⟨rfl, htold, hleft⟩

end Cut

end Traversal

section Run

variable {σ : Type} {settings : Settings} {reporter : Reporter σ}

/-- The policy and the reporter have no part in the visits of a run. -/
theorem exists_visits_of_alike {ignored : List Glob.Pattern} {kind : NodeKind}
    {start : RunState σ} (hdisk : reporter.LeavesDisk)
    (hignored : Glob.parseAll settings.ignorePatterns = .ok ignored)
    (hkind : start.disk.stat settings.root = .ok kind) :
    ∃ visits : List Visit, ∀ policy other, reporter.Alike other →
      let traversal : Traversal σ :=
        { settings := { settings with onFailure := policy }, ignored, reporter := other }
      exec (runTree { settings with onFailure := policy } other) start =
        exec (do
          visits.forM traversal.perform
          traversal.finish) start := by
  let alone : Traversal σ := { settings, ignored, reporter }
  refine ⟨alone.itinerary start.disk kind, ?_⟩
  intro policy other halike traversal
  have hother : other.LeavesDisk := by
    intro callback disk
    rw [halike.touch]
    exact hdisk callback disk
  have hvisits : alone.itinerary start.disk kind = traversal.itinerary start.disk kind := by
    apply Traversal.itinerary_congr <;> rfl
  rw [hvisits]
  exact exec_runTree hother hignored hkind

/-- All runs with these settings but for the policy, and with reporters like this one, come to
their first failure in the same state, after nothing but fixes was told. -/
structure CutAt (settings : Settings) (reporter : Reporter σ) (start cut : RunState σ)
    (error : RunError) : Prop where
  told : start.ToldFixes cut
  exec_eq : ∃ rest : List Visit, ∀ policy other, reporter.Alike other →
    ∃ traversal : Traversal σ, traversal.settings.onFailure = policy ∧
      traversal.reporter = other ∧
      exec (runTree { settings with onFailure := policy } other) start =
        exec (do
          traversal.fail error
          rest.forM traversal.perform
          traversal.finish) cut

namespace CutAt

variable {start cut : RunState σ} {error : RunError} (h : CutAt settings reporter start cut error)

include h

/-- Where failures stop a run, it ends with the first one. -/
theorem exec_stop :
    exec (runTree { settings with onFailure := .stop } reporter) start = (.error error, cut) := by
  obtain ⟨rest, hruns⟩ := h.exec_eq
  obtain ⟨traversal, hpolicy, -, hrun⟩ := hruns .stop reporter (.refl reporter)
  rw [hrun, exec_bind, Traversal.exec_fail_of_stop hpolicy]

variable (hdisk : reporter.LeavesDisk)

include hdisk

/-- Where a run goes on, the failure is told next, whatever the reporter answers. -/
theorem notice_le_goOn :
    cut.trace ++ error.notice .goOn <+:
      (exec (runTree { settings with onFailure := .goOn } reporter) start).2.trace := by
  obtain ⟨rest, hruns⟩ := h.exec_eq
  obtain ⟨traversal, hpolicy, hreported, hrun⟩ := hruns .goOn reporter (.refl reporter)
  rw [← hreported] at hdisk
  have hnotice := Traversal.notice_le_exec error rest cut hdisk
  rw [hpolicy, ← hrun] at hnotice
  exact hnotice

/-- Where a run goes on, the failure is told next, and in the end there is a summary. -/
theorem exec_goOn (hreporter : reporter.NeverFails) :
    let run := exec (runTree { settings with onFailure := .goOn } reporter) start
    (∃ summary, run.1 = .ok summary) ∧ cut.trace ++ error.notice .goOn <+: run.2.trace := by
  intro run
  obtain ⟨rest, hruns⟩ := h.exec_eq
  obtain ⟨traversal, hpolicy, hreported, hrun⟩ := hruns .goOn reporter (.refl reporter)
  rw [← hreported] at hreporter hdisk
  have hall := traversal.exec_of_goOn error rest cut hpolicy hreporter hdisk
  rw [← hrun] at hall
  exact hall

/-- Where the reporter refuses failures, the run ends when the first one is told. -/
theorem exec_refused (cause : IoError) :
    let run := exec (runTree { settings with onFailure := .goOn }
      (reporter.refusingFailures cause)) start
    run.1 = .error (.output cause) ∧ run.2.trace = cut.trace ++ error.notice .goOn ∧
      run.2.disk = cut.disk := by
  intro run
  obtain ⟨rest, hruns⟩ := h.exec_eq
  obtain ⟨traversal, hpolicy, hreported, hrun⟩ :=
    hruns .goOn _ (reporter.alike_refusingFailures cause)
  have hrefuses : ∀ failure memory,
      (traversal.reporter.tell (.failed failure) memory).1 = .error cause := by
    rw [hreported]
    exact fun _ _ => rfl
  have hleaves : traversal.reporter.LeavesDisk := by
    rw [hreported]
    exact hdisk
  have hends := traversal.exec_of_refused error rest cut hpolicy hrefuses hleaves
  rw [← hrun] at hends
  exact hends

end CutAt

variable (settings reporter) (memory : σ) (disk : Disk)

/-- Either no failure is told in a run that goes on after failures, and then the policy makes
no difference, or it is cut by a first one. -/
theorem failed_eq_nil_or_cutAt (hdisk : reporter.LeavesDisk) :
    let start : RunState σ := .initial settings memory disk
    let going := exec (runTree { settings with onFailure := .goOn } reporter) start
    (exec (runTree { settings with onFailure := .stop } reporter) start = going ∧
      going.2.failed = []) ∨
    ∃ cut error, CutAt settings reporter start cut error := by
  intro start going
  cases hignored : Glob.parseAll settings.ignorePatterns with
  | error e =>
      refine .inl ?_
      simp only [going, exec_runTree_eq, hignored, true_and]
      rfl
  | ok ignored =>
      cases hkind : start.disk.stat settings.root with
      | error cause =>
          refine .inl ?_
          simp only [going, exec_runTree_eq, hignored, hkind, true_and]
          rfl
      | ok kind =>
          obtain ⟨visits, hrun⟩ := exists_visits_of_alike hdisk hignored hkind
          let traversal : Traversal σ :=
            { settings := { settings with onFailure := .goOn }, ignored, reporter }
          rcases traversal.exec_visits_of_alike visits start with
            ⟨hsame, htold⟩ | ⟨error, cut, rest, hcut, hrest⟩
          · refine .inl ⟨?_, ?_⟩
            · have hstop := hsame
                { traversal with settings := { settings with onFailure := .stop } }
                ⟨rfl, rfl, rfl, rfl, .refl reporter⟩
              simp only [going, hrun _ _ (.refl reporter), exec_bind, Traversal.exec_finish]
              rw [hstop]
            · simp only [going, hrun _ _ (.refl reporter)]
              rw [traversal.failed_exec_finish]
              exact htold.failed_eq
          · refine .inr ⟨cut, error, hcut, rest, ?_⟩
            intro policy other halike
            let traversal' : Traversal σ :=
              { settings := { settings with onFailure := policy }, ignored, reporter := other }
            refine ⟨traversal', rfl, rfl, ?_⟩
            rw [hrun policy other halike, exec_bind, hrest traversal' ⟨rfl, rfl, rfl, rfl, halike⟩,
              ← exec_bind, bind_assoc]

end Run

/-- A run that is stopped by failures is the run that goes on after them, cut at the first
one.  With a reporter that refuses nothing and leaves the disk alone: if the run that goes on
tells of no failure, both are the same.  Otherwise the other one is ended by an error that
has the path and the wording of the first failure; its reporter was told of the fixes before
this failure and of nothing else; and it leaves the disk as it was when the failure was told,
which is how a run leaves it whose reporter refuses this failure. -/
theorem stopped_completeTree {σ : Type} (settings : Settings) (reporter : Reporter σ)
    (memory : σ) (disk : Disk) (hreporter : reporter.NeverFails)
    (hdisk : reporter.LeavesDisk) :
    let going := completeTree { settings with onFailure := .goOn } reporter memory disk
    let stopped := completeTree { settings with onFailure := .stop } reporter memory disk
    (∀ summary, going.result = .ok summary → summary.failures = going.final.failed) ∧
    (going.final.failed = [] → stopped.result = going.result ∧ stopped.final = going.final) ∧
    ∀ failure others, going.final.failed = failure :: others →
      (∃ summary, going.result = .ok summary) ∧
      (∃ error, stopped.result = .error error ∧ error.path? = failure.path ∧
        error.message = failure.error) ∧
      stopped.final.callbacks = going.final.callbacks.takeWhile (·.failed?.isNone) ∧
      (∀ callback ∈ stopped.final.callbacks, ∃ file, callback = .fixed file) ∧
      ∀ cause,
        let refused := completeTree { settings with onFailure := .goOn }
          (reporter.refusingFailures cause) memory disk
        refused.result = .error (.output cause) ∧
        refused.final.trace = stopped.final.trace ++
          [.log (.skipping failure.error), .called (.failed failure)] ∧
        refused.final.trace <+: going.final.trace ∧
        refused.final.disk = stopped.final.disk := by
  intro going stopped
  refine ⟨fun summary => failures_eq_failed, ?_⟩
  rcases failed_eq_nil_or_cutAt settings reporter memory disk hdisk with
    ⟨hsame, hnone⟩ | ⟨cut, error, hcut⟩
  · have hfailed : going.final.failed = [] := hnone
    refine ⟨fun _ => Prod.mk.inj hsame, ?_⟩
    intro failure others hfailures
    rw [hfailed] at hfailures
    cases hfailures
  · obtain ⟨hresult, hfinal⟩ : stopped.result = .error error ∧ stopped.final = cut :=
      Prod.mk.inj hcut.exec_stop
    obtain ⟨hsummary, hlonger⟩ := hcut.exec_goOn hdisk hreporter
    obtain ⟨⟨others, hfailed⟩, htold, hfixes⟩ := hcut.told.told_of_failure rfl hlonger
    have hgoing : going.final.failed = error.failure :: others := hfailed
    rw [hgoing, hfinal]
    refine ⟨fun hnil => (List.cons_ne_nil _ _ hnil).elim, ?_⟩
    intro failure others' hfailures
    cases hfailures
    refine ⟨hsummary, ⟨error, hresult, rfl, rfl⟩, htold, hfixes, ?_⟩
    intro cause refused
    obtain ⟨hrefusal, htrace, hleft⟩ := hcut.exec_refused hdisk cause
    refine ⟨hrefusal, htrace, ?_, hleft⟩
    show refused.final.trace <+: going.final.trace
    have hrefused : refused.final.trace = cut.trace ++ error.notice .goOn := htrace
    rw [hrefused]
    exact hlonger

/-- The sample fails at `r/c.ts`, a link to nowhere.  Two files are fixed before it, of which
nothing is taken back. -/
theorem stopped_completeTree_sample :
    let message := "r/c.ts: No such file or directory (os error 2)"
    let stopped := completeTree { sampleSettings with onFailure := .stop } .silent () sampleDisk
    (∃ error, stopped.result = .error error ∧ error.path? = some (Path.ofString "r/c.ts") ∧
      error.message = message) ∧
    stopped.final.callbacks =
      ["r/a/z.ts", "r/a.ts"].map fun path => .fixed { path := Path.ofString path, imports := 1 } := by
  intro message stopped
  have hgoing := completeTree_sample { sampleSettings with onFailure := .goOn } .silent ()
    Reporter.silent_leavesDisk rfl rfl rfl
  have hfailed : (completeTree { sampleSettings with onFailure := .goOn } .silent ()
      sampleDisk).final.failed =
        [{ path := some (Path.ofString "r/c.ts"), error := message }] := by
    rw [hgoing]
    decide +kernel
  obtain ⟨-, -, hfirst⟩ := stopped_completeTree sampleSettings .silent () sampleDisk
    Reporter.silent_neverFails Reporter.silent_leavesDisk
  obtain ⟨-, herror, htold, -, -⟩ := hfirst _ _ hfailed
  refine ⟨herror, ?_⟩
  rw [htold, hgoing]
  decide +kernel

end ExplicitImports
