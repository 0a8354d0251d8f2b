import ExplicitImports.Proofs.Report.Kept
import ExplicitImports.Proofs.Walk.Rewritten

/-!
# A second run

A run that has come to its summary leaves nothing to complete: whatever a second run takes
up was completed when the first one ended, also where several paths lead to one file.  So
the second run makes the same visits, and each of them goes as it did before, but that a
file that was fixed is unchanged now.

* `Outcome.again`, `Summary.again` — what comes of a step, and of a run, the second time.
* `outcome_completeFile_again` — the work on a file after the run in which it was taken up.
* `Repeats`, `exec_visits_again` — what a second run has in common with the first one, kept
  by every visit.
* `secondRun_completeTree` — the second run fixes nothing, writes nothing, takes up the same
  files and meets the same failures.
-/

namespace ExplicitImports

open RunM

/-- What comes of the same step when the run is made again. -/
def Outcome.again : Outcome → Outcome
  | ignored path => ignored path
  | unlisted path cause => unlisted path cause
  | unchanged path => unchanged path
  | fixed file => unchanged file.path
  | broken path tried error => broken path tried error

/-- The summary of the same run when it is made again. -/
def Summary.again (summary : Summary) : Summary :=
  { summary with imports := 0, fixed := [] }

namespace Outcome

variable (outcome : Outcome)

@[simp] theorem error?_again : outcome.again.error? = outcome.error? := by
  cases outcome <;> rfl

@[simp] theorem scanned?_again : outcome.again.scanned? = outcome.scanned? := by
  cases outcome <;> rfl

theorem count_again (summary : Summary) :
    (summary.count outcome).again = summary.again.count outcome.again := by
  cases outcome <;> rfl

variable {outcome}

/-- The only writes that would be tried again are those that were given up. -/
theorem wrote_mem_events_again {settings : Settings} {path : Path} {complete : Bool}
    (h : .file (.wrote path complete) ∈ outcome.again.events settings) :
    .file (.wrote path false) ∈ outcome.events settings := by
  have hnotice (error : RunError) (policy : FailurePolicy) :
      .file (.wrote path complete) ∉ error.notice policy := by
    cases policy <;> simp [RunError.notice]
  cases outcome with
  | ignored other => simp [again, events, work, notice] at h
  | unlisted other cause => simp [again, events, work, notice, hnotice] at h
  | unchanged other => simp [again, events, work, notice] at h
  | fixed file => simp [again, events, work, notice] at h
  | broken other tried error =>
      cases tried with
      | false => simp [again, events, work, notice, hnotice] at h
      | true =>
          have hsame : path = other ∧ complete = false := by
            simpa [again, events, work, notice, hnotice] using h
          simp [events, work, hsame.1]

end Outcome

/-- When the run has ended in which a file was taken up, nothing is left to complete in it.
The work on it comes to the same again, but that it was fixed then and is unchanged now. -/
theorem outcome_completeFile_again {settings : Settings} {places : Location → Prop}
    {now final : Disk} {path : Path} (hdry : settings.dryRun = false)
    (hext : '\'' ∉ settings.extension.toList) (hshape : final.SameShape now)
    (hcompleted : now.CompletedAt settings places final)
    (hplaces : ∀ there, now.resolve path = .ok there → now.Readable there → places there)
    (hwrites : ∀ other, .wrote other false ∉ (completeFile settings path now).events) :
    (completeFile settings path final).outcome path =
        ((completeFile settings path now).outcome path).again ∧
      (completeFile settings path final).disk = final := by
  have hcase := fileCase_completeFile settings path now
  generalize completeFile settings path now = run at hcase hwrites ⊢
  -- What was read then decides what is read now, and nothing of it is written any more.
  cases hcase with
  | unread hread =>
      rw [completeFile_of_error (hcompleted.readText_error hshape hread)]
      simp [FileRun.outcome, Outcome.again]
  | unchanged hread hsame =>
      rw [completeFile_of_unchanged (hcompleted.readText_of_unchanged hshape hread hsame) hsame]
      exact ⟨rfl, rfl⟩
  | unwritten hread himports hpos hwet =>
      rw [hdry] at hwet
      cases hwet
  | refused hread hpos _ hwrite => exact absurd (by simp) (hwrites path)
  | @written content _ _ hread _ _ _ _ =>
      obtain ⟨place, node, hnode, hopen, -⟩ := Disk.exists_of_readText hread
      have hplace := (Disk.resolveNode_eq_ok_iff.1 hnode).1
      have hinside := hplaces place hplace hopen
      have hlater := hcompleted.readText_of_inside hshape hplace hinside hread
      rw [completeFile_of_unchanged hlater (not_changesText_completeImports hext content)]
      exact ⟨rfl, rfl⟩

/-- Two runs after the same visits, where the second one works on the disk that the first one
has left in the end. -/
structure Repeats {σ τ : Type} (final : Disk) (once : RunState σ) (again : RunState τ) : Prop where
  disk : again.disk = final
  summary : again.summary = once.summary.again
  scanned : again.scanned = once.scanned
  unwritten : ∀ path complete, .file (.wrote path complete) ∉ again.trace

namespace Traversal

/-- Two traversals of the same tree with the same settings, which are not dry and have an
extension without a quote; neither reporter touches the disk, and the second one refuses
nothing. -/
structure RunsAgain {σ τ : Type} (once : Traversal σ) (again : Traversal τ) : Prop where
  settings : again.settings = once.settings
  ignored : again.ignored = once.ignored
  dryRun : once.settings.dryRun = false
  extension : '\'' ∉ once.settings.extension.toList
  leavesDisk : once.reporter.LeavesDisk
  againLeavesDisk : again.reporter.LeavesDisk
  againNeverFails : again.reporter.NeverFails

namespace RunsAgain

variable {σ τ : Type} {once : Traversal σ} {again : Traversal τ} (hpair : once.RunsAgain again)
  {final : Disk} {state next : RunState σ} {later : RunState τ}

include hpair

/-- The visits are the same, for the shape of the disk is. -/
theorem itinerary_eq {disk : Disk} (hshape : final.SameShape disk) (kind : NodeKind) :
    again.itinerary final kind = once.itinerary disk kind := by
  rw [again.itinerary_eq_of_sameShape hshape]
  apply itinerary_congr
  · rw [hpair.settings]
  · rw [hpair.settings]
  · exact hpair.ignored

/-- What is done about an outcome that has not ended the first run does not end the second
one, and keeps them in step. -/
theorem repeats_settle (h : Repeats final state later) {outcome : Outcome} {left : Disk}
    (hok : (exec (once.settle outcome)
      (state.afterWork once.settings outcome left)).1 = .ok ())
    (hwrites : ∀ path, .file (.wrote path false) ∉ outcome.events once.settings) :
    let a := exec (once.settle outcome) (state.afterWork once.settings outcome left)
    let b := exec (again.settle outcome.again)
      (later.afterWork again.settings outcome.again final)
    b.1 = .ok () ∧ Repeats final a.2 b.2 := by
  intro a b
  obtain ⟨hsummary, hstop⟩ := summary_exec_settle hok
  have hgoesOn : b.1 = .ok () := by
    simp only [b]
    rw [exec_settle_of_neverFails _ _ hpair.againNeverFails, Outcome.error?_again, hpair.settings]
    cases hpolicy : once.settings.onFailure with
    | stop => simp only [hstop hpolicy]
    | goOn => rfl
  refine ⟨hgoesOn, (onlyTold_settle _ _ hpair.againLeavesDisk).disk, ?_, ?_, ?_⟩
  · rw [(summary_exec_settle hgoesOn).1, hsummary, h.summary, Outcome.count_again]
  · rw [scanned_exec_settle, scanned_exec_settle, h.scanned, Outcome.scanned?_again]
  · intro path complete
    rw [trace_exec_settle_afterWork, List.mem_append, not_or, hpair.settings]
    exact ⟨h.unwritten path complete, fun hwrote =>
      hwrites path (Outcome.wrote_mem_events_again hwrote)⟩

/-- A visit that the first run has carried out is carried out again. -/
theorem repeats_perform (h : Repeats final state later) {visit : Visit} {places : Location → Prop}
    (hshape : final.SameShape state.disk)
    (hcompleted : state.disk.CompletedAt once.settings places final)
    (hplaces : ∀ there, once.Reaches state.disk [visit] there → places there)
    (hok : (exec (once.perform visit) state).1 = .ok ())
    (hwrites : ∀ path, .file (.wrote path false) ∉ (exec (once.perform visit) state).2.trace) :
    (exec (again.perform visit) later).1 = .ok () ∧
      Repeats final (exec (once.perform visit) state).2 (exec (again.perform visit) later).2 := by
  rw [visit.exec_perform_eq_settle once, trace_exec_settle_afterWork] at hwrites
  have hevents : ∀ path, .file (.wrote path false) ∉
      (visit.outcome once.settings state.disk).events once.settings :=
    fun path hpath => hwrites path (List.mem_append_right _ hpath)
  have hvisit : visit.outcome again.settings final =
        (visit.outcome once.settings state.disk).again ∧
      visit.diskAfter again.settings final = final := by
    rw [hpair.settings]
    cases visit with
    | scan names =>
        refine outcome_completeFile_again hpair.dryRun hpair.extension hshape hcompleted ?_ ?_
        · exact fun there hthere hopen =>
            hplaces there ⟨names, List.mem_singleton_self _, hthere, hopen⟩
        · intro other hother
          apply hevents other
          unfold Visit.outcome Outcome.events
          rw [work_outcome_completeFile]
          simp [hother]
    | passBy names => exact ⟨rfl, rfl⟩
    | refuse names cause => exact ⟨rfl, rfl⟩
  rw [visit.exec_perform_eq_settle once] at hok ⊢
  rw [visit.exec_perform_eq_settle again, h.disk, hvisit.1, hvisit.2]
  exact hpair.repeats_settle h hok hevents

/-- Visits that the first run has carried out are carried out again. -/
theorem exec_visits_again {visits : List Visit} (h : Repeats next.disk state later)
    (hvisits : exec (visits.forM once.perform) state = (.ok (), next))
    (hwrites : ∀ path, .file (.wrote path false) ∉ next.trace) :
    ∃ last, exec (visits.forM again.perform) later = (.ok (), last) ∧
      Repeats next.disk next last := by
  induction visits generalizing state later with
  | nil =>
      cases hvisits
      exact ⟨later, rfl, h⟩
  | cons visit visits ih =>
      -- What is left to do from here on completes all that this visit reaches.
      have hcompleted := once.completedAt_of_exec_visits hpair.dryRun hpair.leavesDisk
        hpair.extension hvisits hwrites
      have hshape := sameShape_visits hpair.leavesDisk (visit :: visits) state
      rw [hvisits] at hshape
      have hplaces : ∀ there, once.Reaches state.disk [visit] there →
          once.Reaches state.disk (visit :: visits) there :=
        fun there hthere => reaches_cons_iff.2 (.inl hthere)
      have hstep := hpair.repeats_perform h hshape hcompleted hplaces
      rw [exec_forM_cons] at hvisits ⊢
      cases hfirst : exec (once.perform visit) state with
      | mk result between =>
          rw [hfirst] at hvisits hstep
          cases result with
          | error e => cases hvisits
          | ok _ =>
              dsimp only at hvisits
              have hlonger := trace_le_visits hpair.leavesDisk visits between
              rw [hvisits] at hlonger
              obtain ⟨hok, hrepeats⟩ := hstep rfl fun path hwrote =>
                hwrites path (hlonger.subset hwrote)
              cases hsecond : exec (again.perform visit) later with
              | mk result' between' =>
                  rw [hsecond] at hok hrepeats
                  cases hok
                  exact ih hrepeats hvisits

/-- The report at the end is the summary of the first run made again. -/
theorem repeats_finish (h : Repeats final next later) :
    (exec again.finish later).1 = .ok next.summary.again ∧
      Repeats final next (exec again.finish later).2 := by
  have htold := onlyTold_finish hpair.againLeavesDisk later
  refine ⟨?_, htold.disk.trans h.disk, ?_, htold.scanned_eq.trans h.scanned, ?_⟩
  · rw [exec_finish, hpair.againNeverFails, h.summary]
    rfl
  · rw [exec_finish]
    exact h.summary
  · exact fun path complete hwrote =>
      h.unwritten path complete ((htold.wrote_mem_iff path complete).1 hwrote)

end RunsAgain

end Traversal

/-- The second run with the same settings finds nothing to do.  If a run has returned a
summary, was not dry, had an extension without a quote and has given up no write, the next one
over the disk that it has left returns the same summary without any fixes, and with it the same
failures; it takes up the same files, tries no write and leaves the disk as it is. -/
theorem secondRun_completeTree {σ τ : Type} (settings : Settings) (reporter : Reporter σ)
    (memory : σ) (nextReporter : Reporter τ) (nextMemory : τ) (disk : Disk) (summary : Summary)
    (hdry : settings.dryRun = false) (hext : '\'' ∉ settings.extension.toList)
    (hdisk : reporter.LeavesDisk) (hnextDisk : nextReporter.LeavesDisk)
    (hnextFails : nextReporter.NeverFails)
    (hwrites : ∀ path, .file (.wrote path false) ∉
      (completeTree settings reporter memory disk).final.trace)
    (hresult : (completeTree settings reporter memory disk).result = .ok summary) :
    let first := completeTree settings reporter memory disk
    let second := completeTree settings nextReporter nextMemory first.final.disk
    second.result = .ok { summary with imports := 0, fixed := [] } ∧
      second.final.disk = first.final.disk ∧
      (∀ path complete, .file (.wrote path complete) ∉ second.final.trace) ∧
      second.final.scanned = first.final.scanned := by
  intro first second
  obtain ⟨ignored, kind, next, hignored, hkind, hvisits, rfl, htold⟩ :=
    exists_of_completeTree hdisk hresult
  let once : Traversal σ := { settings, ignored, reporter }
  let again : Traversal τ := { settings, ignored, reporter := nextReporter }
  have hpair : once.RunsAgain again :=
    ⟨rfl, rfl, hdry, hext, hdisk, hnextDisk, hnextFails⟩
  let start : RunState σ := .initial settings memory disk
  let later : RunState τ := .initial settings nextMemory next.disk
  have hstart : Repeats next.disk start later := ⟨rfl, rfl, rfl, fun _ _ => List.not_mem_nil⟩
  obtain ⟨last, hagain, hrepeats⟩ := hpair.exec_visits_again hstart hvisits fun path hwrote =>
    hwrites path ((htold.wrote_mem_iff path false).2 hwrote)
  have hshape : next.disk.SameShape disk := by
    have hkept := once.sameShape_visits hdisk (once.itinerary disk kind) start
    rw [hvisits] at hkept
    exact hkept
  have hroot : later.disk.stat settings.root = .ok kind := (hshape.stat_eq _).trans hkind
  have hsame : again.itinerary later.disk kind = once.itinerary disk kind :=
    hpair.itinerary_eq hshape kind
  have hsecond : (second.result, second.final) = exec again.finish last := by
    show exec (runTree settings nextReporter) (.initial settings nextMemory first.final.disk) = _
    rw [htold.disk, exec_runTree hnextDisk hignored hroot, exec_bind, hsame,
      hagain]
  obtain ⟨hok, hend⟩ := hpair.repeats_finish hrepeats
  rw [← hsecond] at hok hend
  exact ⟨hok, hend.disk.trans htold.disk.symm, hend.unwritten,
    hend.scanned.trans htold.scanned_eq.symm⟩

/-- The first run over the sample has fixed two files.  The dangling link `r/c.ts` fails in the
second one as it did in the first. -/
theorem secondRun_completeTree_sample :
    let first := completeTree sampleSettings .silent () sampleDisk
    let second := completeTree sampleSettings .silent () first.final.disk
    first.result = .ok sampleSummary ∧ sampleSummary.fixed.length = 2 ∧
      second.result = .ok
        { dryRun := false, scanned := 4
          failures := [{ path := some (Path.ofString "r/c.ts"),
                         error := "r/c.ts: No such file or directory (os error 2)" }] } ∧
      second.final.disk = first.final.disk := by
  intro first second
  have hwrites := wrote_notMem_completeTree Reporter.silent_leavesDisk rfl
    result_completeTree_sample
  obtain ⟨hresult, hleft, -, -⟩ :=
    secondRun_completeTree sampleSettings .silent () .silent () sampleDisk sampleSummary rfl
      (by decide +kernel) Reporter.silent_leavesDisk Reporter.silent_leavesDisk
      Reporter.silent_neverFails hwrites result_completeTree_sample
  exact ⟨result_completeTree_sample, rfl, hresult, hleft⟩

end ExplicitImports
