import ExplicitImports.Proofs.Disk.Below
import ExplicitImports.Proofs.Run.Steps
import ExplicitImports.Proofs.Run.Work

/-!
# The itinerary of a walk

A walk asks the disk what there is and works on files as it goes.  As long as nothing
but the walk itself touches the disk, the answers do not depend on the work already
done, for writing changes no more than the data of files.  So the walk can be planned
from the disk it starts on:

* `Traversal.itinerary` — the visits of a walk, told by the names that lead to them.
* `exec_walk_eq_itinerary` — a walk does what its itinerary says, visit by visit.
* `itinerary_eq_of_sameShape` — disks of one shape have one itinerary.
-/

namespace ExplicitImports

open RunM

/-- What a walk does where the names lead from its root. -/
inductive Visit where
  | scan (names : List Name)
  | passBy (names : List Name)
  | refuse (names : List Name) (cause : IoError)

namespace Visit

/-- The names that lead to the file of a visit, if one is taken up. -/
def scanned? : Visit → Option (List Name)
  | scan names => some names
  | passBy _ | refuse .. => none

end Visit

namespace Traversal

variable {σ : Type}

/-- Carry out a visit. -/
def perform (traversal : Traversal σ) : Visit → RunM σ Unit
  | .scan names => traversal.scan (traversal.settings.root.below names)
  | .passBy names => record [.log (.ignored (traversal.settings.root.below names))]
  | .refuse names cause =>
      traversal.fail (listingError (traversal.settings.root.below names) cause)

/-- The visits for an entry of the directory that `above` leads to; `inside` has those for
a directory. -/
def entryVisits (traversal : Traversal σ) (disk : Disk) (inside : List Name → List Visit)
    (above : List Name) (name : Name) (kind : NodeKind) : List Visit :=
  let names := above ++ [name]
  if traversal.passesBy name then [.passBy names]
  else if kind = .dir then inside names
  else if leadsToFile disk (traversal.settings.root.below names) kind
      && traversal.settings.selects name.text then
    [.scan names]
  else []

/-- The visits in a directory and at most so many levels below it. -/
def visits (traversal : Traversal σ) (disk : Disk) : (levels : Nat) → List Name → List Visit
  | 0, names => [.refuse names (.os .nameTooLong)]
  | levels + 1, names =>
      match disk.list (traversal.settings.root.below names) with
      | .error cause => [.refuse names cause]
      | .ok entries => entries.flatMap fun (name, kind) =>
          traversal.entryVisits disk (traversal.visits disk levels) names name kind

/-- All visits of a walk from a root of this type. -/
def itinerary (traversal : Traversal σ) (disk : Disk) (kind : NodeKind) : List Visit :=
  let root := traversal.settings.root
  if root.isStandardInput then []
  else match kind with
    | .dir => traversal.visits disk Disk.pathLimit []
    | .file =>
        if traversal.settings.selects (Utf8.stringLossy root.fileName) then [.scan []] else []
    | .link | .pipe => []

theorem leadsToFile_eq {d e : Disk} (h : d.SameShape e) (path : Path) (kind : NodeKind) :
    leadsToFile d path kind = leadsToFile e path kind := by
  unfold leadsToFile
  rw [h.stat_eq]

section Shape

variable (traversal : Traversal σ) {d e : Disk}

theorem visits_eq_of_sameShape (h : d.SameShape e) (levels : Nat) (names : List Name) :
    traversal.visits d levels names = traversal.visits e levels names := by
  induction levels generalizing names with
  | zero => rfl
  | succ levels ih =>
      have hinside : traversal.visits d levels = traversal.visits e levels := by
        ext1 below
        exact ih below
      unfold visits entryVisits
      simp only [h.list_eq, leadsToFile_eq h, hinside]

/-- Disks of one shape have one itinerary. -/
theorem itinerary_eq_of_sameShape (h : d.SameShape e) (kind : NodeKind) :
    traversal.itinerary d kind = traversal.itinerary e kind := by
  unfold itinerary
  rw [traversal.visits_eq_of_sameShape h]

end Shape

section Congr

variable {τ : Type} {traversal : Traversal σ} {other : Traversal τ}
  (hroot : traversal.settings.root = other.settings.root)
  (hsuffixes : traversal.settings.suffixes = other.settings.suffixes)
  (hignored : traversal.ignored = other.ignored)

include hroot hsuffixes hignored

theorem visits_congr (disk : Disk) (levels : Nat) (names : List Name) :
    traversal.visits disk levels names = other.visits disk levels names := by
  induction levels generalizing names with
  | zero => rfl
  | succ levels ih =>
      have hinside : traversal.visits disk levels = other.visits disk levels := by
        ext1 below
        exact ih below
      unfold visits entryVisits passesBy Settings.selects
      simp only [hroot, hsuffixes, hignored, hinside]

/-- An itinerary depends on the root, the suffixes and the ignored patterns alone. -/
theorem itinerary_congr (disk : Disk) (kind : NodeKind) :
    traversal.itinerary disk kind = other.itinerary disk kind := by
  unfold itinerary Settings.selects
  rw [hroot, hsuffixes, visits_congr hroot hsuffixes hignored]

end Congr

section Simulation

variable {traversal : Traversal σ} (hdisk : traversal.reporter.LeavesDisk) {disk : Disk}

include hdisk

/-- No visit changes the shape of the disk. -/
theorem sameShape_perform (visit : Visit) (state : RunState σ) :
    (exec (traversal.perform visit) state).2.disk.SameShape state.disk := by
  cases visit with
  | scan names =>
      unfold perform
      rw [disk_exec_scan hdisk]
      exact sameShape_completeFile _ _ _
  | passBy names => exact .refl _
  | refuse names cause =>
      unfold perform
      rw [(onlyTold_fail hdisk _ state).disk]

/-- A walk of a directory does what its visits say. -/
theorem exec_walkDirectory_eq_visits (levels : Nat) (names : List Name) {state : RunState σ}
    (h : state.disk.SameShape disk) :
    exec (traversal.walkDirectory levels (traversal.settings.root.below names)) state =
      exec ((traversal.visits disk levels names).forM traversal.perform) state := by
  induction levels generalizing names state with
  | zero =>
      unfold walkDirectory visits
      rw [exec_forM_singleton]
      rfl
  | succ levels ih =>
      unfold walkDirectory visits
      rw [exec_bind, exec_disk]
      simp only
      rw [h.list_eq]
      cases hlist : disk.list (traversal.settings.root.below names) with
      | error cause =>
          simp only
          rw [exec_forM_singleton]
          rfl
      | ok entries =>
          simp only
          -- The disk keeps its shape from entry to entry, so it answers as it did before
          -- the walk.
          let shaped (state : RunState σ) : Prop := state.disk.SameShape disk
          have hstart : shaped state := h
          refine exec_forM_flatMap ?_ ?_ hstart
          · intro visit state hstate
            exact (sameShape_perform hdisk visit state).trans hstate
          · intro entry _ state hstate
            obtain ⟨name, kind⟩ := entry
            unfold entryVisits
            simp only
            rw [← Path.below_concat]
            by_cases hpass : traversal.passesBy name = true
            · rw [if_pos hpass, if_pos hpass, exec_forM_singleton]
              rfl
            · rw [if_neg hpass, if_neg hpass]
              by_cases hkind : kind = .dir
              · rw [if_pos hkind, if_pos hkind]
                exact ih (names ++ [name]) hstate
              · rw [if_neg hkind, if_neg hkind, exec_bind, exec_disk]
                simp only
                rw [leadsToFile_eq hstate]
                split
                · rw [exec_forM_singleton]
                  rfl
                · rfl

/-- A walk does what its itinerary says. -/
theorem exec_walk_eq_itinerary (kind : NodeKind) {state : RunState σ}
    (h : state.disk.SameShape disk) :
    exec (traversal.walk kind) state =
      exec ((traversal.itinerary disk kind).forM traversal.perform) state := by
  unfold walk itinerary
  simp only
  split
  · rfl
  · cases kind with
    | dir => exact exec_walkDirectory_eq_visits hdisk Disk.pathLimit [] h
    | file =>
        simp only
        split
        · rw [exec_forM_singleton]
          rfl
        · rfl
    | link => rfl
    | pipe => rfl

end Simulation

section Visits

variable {traversal : Traversal σ} (hdisk : traversal.reporter.LeavesDisk)

include hdisk

/-- A visit takes up its file, if it has one. -/
theorem scanned_perform (visit : Visit) (state : RunState σ) :
    (exec (traversal.perform visit) state).2.scanned =
        state.scanned ++ visit.scanned?.toList.map traversal.settings.root.below ∧
      (exec (traversal.perform visit) state).2.summary.scanned =
        state.summary.scanned + visit.scanned?.toList.length := by
  cases visit with
  | scan names => exact ⟨scanned_exec_scan hdisk _ state, count_exec_scan hdisk _ state⟩
  | passBy names =>
      have hnone : (Event.log (.ignored (traversal.settings.root.below names))).scanned? = none :=
        rfl
      unfold perform
      simp [Visit.scanned?, RunState.scanned, hnone]
  | refuse names cause =>
      have htold := onlyTold_fail hdisk
        (listingError (traversal.settings.root.below names) cause) state
      unfold perform
      simpa [Visit.scanned?] using And.intro htold.scanned_eq htold.count

theorem trace_le_perform (visit : Visit) (state : RunState σ) :
    state.trace <+: (exec (traversal.perform visit) state).2.trace := by
  cases visit with
  | scan names =>
      have hworked : state.trace <+:
          (traversal.worked (traversal.settings.root.below names) state).trace :=
        List.prefix_append _ _
      exact hworked.trans (onlyTold_scan hdisk _ state).trace_le
  | passBy names => exact List.prefix_append _ _
  | refuse names cause => exact (onlyTold_fail hdisk _ state).trace_le

/-- Visits that are all carried out take up their files in order. -/
theorem scanned_of_exec_visits {visits : List Visit} {state next : RunState σ}
    (h : exec (visits.forM traversal.perform) state = (.ok (), next)) :
    next.scanned =
        state.scanned ++ (visits.filterMap Visit.scanned?).map traversal.settings.root.below ∧
      next.summary.scanned =
        state.summary.scanned + (visits.filterMap Visit.scanned?).length := by
  induction visits generalizing state with
  | nil =>
      cases h
      simp
  | cons visit visits ih =>
      obtain ⟨hscanned, hcount⟩ := scanned_perform hdisk visit state
      rw [exec_forM_cons] at h
      cases hexec : exec (traversal.perform visit) state with
      | mk result between =>
          rw [hexec] at h hscanned hcount
          cases result with
          | error e => cases h
          | ok _ =>
              obtain ⟨hrest, hcounts⟩ := ih h
              rw [hrest, hcounts, hscanned, hcount]
              cases hvisit : visit.scanned? with
              | none => simp [hvisit]
              | some names =>
                  simp [hvisit]
                  omega

theorem trace_le_visits (visits : List Visit) (state : RunState σ) :
    state.trace <+: (exec (visits.forM traversal.perform) state).2.trace := by
  let longer (next : RunState σ) : Prop := state.trace <+: next.trace
  have hstart : longer state := List.prefix_refl _
  refine exec_forM_keeps ?_ hstart
  intro visit _ next hnext
  exact hnext.trans (trace_le_perform hdisk visit next)

/-- No visits change the shape of the disk. -/
theorem sameShape_visits (visits : List Visit) (state : RunState σ) :
    (exec (visits.forM traversal.perform) state).2.disk.SameShape state.disk := by
  let shaped (next : RunState σ) : Prop := next.disk.SameShape state.disk
  have hstart : shaped state := .refl state.disk
  refine exec_forM_keeps ?_ hstart
  intro visit _ next hnext
  exact (sameShape_perform hdisk visit next).trans hnext

omit hdisk

/-- Where failures are passed over, all visits are carried out. -/
theorem exec_visits_of_goOn (hpolicy : traversal.settings.onFailure = .goOn)
    (hreporter : traversal.reporter.NeverFails) (visits : List Visit) (state : RunState σ) :
    (exec (visits.forM traversal.perform) state).1 = .ok () := by
  apply exec_forM_ok
  intro visit _ state
  cases visit with
  | scan names =>
      unfold perform
      rw [exec_scan]
      exact exec_conclude_of_goOn hpolicy hreporter _ _ _
  | passBy names => rfl
  | refuse names cause => exact exec_fail_of_goOn hpolicy hreporter _ state

end Visits

end Traversal

section Run

variable {σ : Type} {settings : Settings} {reporter : Reporter σ} {memory : σ} {disk : Disk}

/-- The state a run starts from. -/
def RunState.initial (settings : Settings) (memory : σ) (disk : Disk) : RunState σ :=
  { disk, summary := { dryRun := settings.dryRun }, reporter := memory }

/-- What is done after the walk: the summary is reported, and it is the result. -/
def Traversal.finish (traversal : Traversal σ) : RunM σ Summary := do
  let summary := (← get).summary
  traversal.tell (.done summary)
  return summary

theorem Traversal.onlyTold_finish {traversal : Traversal σ}
    (hdisk : traversal.reporter.LeavesDisk) (state : RunState σ) :
    state.OnlyTold (exec traversal.finish state).2 := by
  unfold finish
  rw [exec_bind, exec_get]
  simp only
  apply exec_bind_keeps (onlyTold_tell hdisk _ state)
  intro _ next hnext
  exact hnext

theorem Traversal.eq_of_exec_finish {traversal : Traversal σ} {summary : Summary}
    {state : RunState σ} (h : (exec traversal.finish state).1 = .ok summary) :
    summary = state.summary := by
  unfold finish at h
  rw [exec_bind, exec_get] at h
  simp only at h
  obtain ⟨_, next, -, hrest⟩ := exists_of_exec_bind h
  rw [hrest] at h
  cases h
  rfl

/-- A run returns a summary only if its patterns can be read and its root exists. -/
theorem exists_of_exec_runTree {summary : Summary} {state : RunState σ}
    (h : (exec (runTree settings reporter) state).1 = .ok summary) :
    ∃ ignored kind, Glob.parseAll settings.ignorePatterns = .ok ignored ∧
      state.disk.stat settings.root = .ok kind := by
  unfold runTree at h
  obtain ⟨ignored, next, hignored, hrest⟩ := exists_of_exec_bind h
  rw [exec_ofExcept, Prod.mk.injEq] at hignored
  obtain ⟨hignored, rfl⟩ := hignored
  rw [hrest, exec_bind, exec_disk] at h
  obtain ⟨kind, next, hkind, -⟩ := exists_of_exec_bind h
  rw [exec_ofExcept, Prod.mk.injEq] at hkind
  refine ⟨ignored, kind, hignored, ?_⟩
  cases hstat : state.disk.stat settings.root with
  | error cause =>
      rw [hstat] at hkind
      cases hkind.1
  | ok found =>
      rw [hstat] at hkind
      cases hkind.1
      rfl

/-- A run whose patterns can be read and whose root exists carries out an itinerary and
reports the summary then. -/
theorem exec_runTree {ignored : List Glob.Pattern} {kind : NodeKind} {state : RunState σ}
    (hdisk : reporter.LeavesDisk) (hignored : Glob.parseAll settings.ignorePatterns = .ok ignored)
    (hkind : state.disk.stat settings.root = .ok kind) :
    let traversal : Traversal σ := { settings, ignored, reporter }
    exec (runTree settings reporter) state =
      exec (do
        (traversal.itinerary state.disk kind).forM traversal.perform
        traversal.finish) state := by
  intro traversal
  unfold runTree
  rw [exec_bind, exec_ofExcept, hignored]
  simp only
  rw [exec_bind, exec_disk]
  simp only
  have hroot : (state.disk.stat settings.root).mapError (RunError.io settings.root) = .ok kind := by
    rw [hkind]
    rfl
  rw [exec_bind, exec_ofExcept, hroot]
  simp only
  have hwalk := traversal.exec_walk_eq_itinerary hdisk kind (Disk.SameShape.refl state.disk)
  rw [exec_bind, hwalk, exec_bind]
  rfl

/-- What a run that returns a summary has done: its itinerary, and then no more than to
report that summary. -/
theorem exists_of_completeTree {summary : Summary} (hdisk : reporter.LeavesDisk)
    (h : (completeTree settings reporter memory disk).result = .ok summary) :
    ∃ ignored kind next,
      Glob.parseAll settings.ignorePatterns = .ok ignored ∧
      disk.stat settings.root = .ok kind ∧
      exec ((Traversal.itinerary { settings, ignored, reporter } disk kind).forM
        (Traversal.perform { settings, ignored, reporter })) (.initial settings memory disk) =
          (.ok (), next) ∧
      summary = next.summary ∧
      next.OnlyTold (completeTree settings reporter memory disk).final := by
  have hrun : (exec (runTree settings reporter) (.initial settings memory disk)).1 =
      .ok summary := h
  have hfinal : (completeTree settings reporter memory disk).final =
      (exec (runTree settings reporter) (.initial settings memory disk)).2 := rfl
  obtain ⟨ignored, kind, hignored, hkind⟩ := exists_of_exec_runTree hrun
  rw [exec_runTree hdisk hignored hkind] at hrun hfinal
  obtain ⟨_, next, hvisits, hfinish⟩ := exists_of_exec_bind hrun
  rw [hfinish] at hrun hfinal
  refine ⟨ignored, kind, next, hignored, hkind, hvisits, Traversal.eq_of_exec_finish hrun, ?_⟩
  rw [hfinal]
  exact Traversal.onlyTold_finish hdisk next

/-- A run that returns a summary has taken up the files of its itinerary, and counts them. -/
theorem scanned_of_completeTree {ignored : List Glob.Pattern} {kind : NodeKind} {summary : Summary}
    (hdisk : reporter.LeavesDisk) (hignored : Glob.parseAll settings.ignorePatterns = .ok ignored)
    (hkind : disk.stat settings.root = .ok kind)
    (h : (completeTree settings reporter memory disk).result = .ok summary) :
    let traversal : Traversal σ := { settings, ignored, reporter }
    let found := (traversal.itinerary disk kind).filterMap Visit.scanned?
    (completeTree settings reporter memory disk).final.scanned = found.map settings.root.below ∧
      summary.scanned = found.length := by
  intro traversal found
  obtain ⟨ignored', kind', next, hignored', hkind', hvisits, hnext, htold⟩ :=
    exists_of_completeTree hdisk h
  rw [hignored] at hignored'
  cases hignored'
  rw [hkind] at hkind'
  cases hkind'
  obtain ⟨hscanned, hcount⟩ := traversal.scanned_of_exec_visits hdisk hvisits
  refine ⟨?_, ?_⟩
  · rw [htold.scanned_eq, hscanned]
    rfl
  · rw [hnext, hcount]
    exact Nat.zero_add _

variable (memory)

/-- Where failures are passed over and the reporter refuses nothing, a run with patterns
that can be read and a root that exists returns a summary. -/
theorem exists_completeTree_ok {ignored : List Glob.Pattern} {kind : NodeKind}
    (hdisk : reporter.LeavesDisk) (hreporter : reporter.NeverFails)
    (hpolicy : settings.onFailure = .goOn)
    (hignored : Glob.parseAll settings.ignorePatterns = .ok ignored)
    (hkind : disk.stat settings.root = .ok kind) :
    ∃ summary, (completeTree settings reporter memory disk).result = .ok summary := by
  let traversal : Traversal σ := { settings, ignored, reporter }
  let start : RunState σ := .initial settings memory disk
  have hstart : start.disk.stat settings.root = .ok kind := hkind
  have hvisits := traversal.exec_visits_of_goOn hpolicy hreporter
    (traversal.itinerary start.disk kind) start
  refine ⟨(exec ((traversal.itinerary start.disk kind).forM traversal.perform)
    start).2.summary, ?_⟩
  show (exec (runTree settings reporter) start).1 = _
  rw [exec_runTree hdisk hignored hstart, exec_bind]
  cases hexec : exec ((traversal.itinerary start.disk kind).forM traversal.perform) start with
  | mk result next =>
      rw [hexec] at hvisits
      cases hvisits
      simp only
      unfold Traversal.finish
      rw [exec_bind, exec_get]
      simp only
      exact exec_bind_ok (Traversal.exec_tell_of_neverFails hreporter _ next) fun _ => rfl

/-- The files that such a run takes up are those of its itinerary, and it counts them. -/
theorem scanned_completeTree_eq {ignored : List Glob.Pattern} {kind : NodeKind}
    (hdisk : reporter.LeavesDisk) (hreporter : reporter.NeverFails)
    (hpolicy : settings.onFailure = .goOn)
    (hignored : Glob.parseAll settings.ignorePatterns = .ok ignored)
    (hkind : disk.stat settings.root = .ok kind) :
    let traversal : Traversal σ := { settings, ignored, reporter }
    let found := (traversal.itinerary disk kind).filterMap Visit.scanned?
    (completeTree settings reporter memory disk).final.scanned = found.map settings.root.below ∧
      ∃ summary, (completeTree settings reporter memory disk).result = .ok summary ∧
        summary.scanned = found.length := by
  intro traversal found
  obtain ⟨summary, hsummary⟩ :=
    exists_completeTree_ok memory hdisk hreporter hpolicy hignored hkind
  obtain ⟨hscanned, hcount⟩ := scanned_of_completeTree hdisk hignored hkind hsummary
  exact ⟨hscanned, summary, hsummary, hcount⟩

end Run

end ExplicitImports
