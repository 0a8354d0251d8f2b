import ExplicitImports.Proofs.Report.SideBySide
import ExplicitImports.Proofs.Walk.Respelled
import Mathlib.Data.List.Forall2

/-!
# One run from two roots

Two runs whose roots are paths to one directory do the same to the disk and report the same of
it, each under its own root.

* `Outcome.Respelled`, `Summary.Respelled` — what comes of a step, and what a run has done so far,
  under the one root and under the other.
* `respelled_completeFile` — the work on one file under two paths.
* `respelled_settle`, `respelled_visits` — two such runs step by step and visit by visit.
* `respelled_completeTree` — two such runs to their ends.

A directory that is named like the standard input is not walked (`not_forall_respelled`).
-/

namespace ExplicitImports

open RunM

section Relations

variable (root other : Path)

/-- A fix of the same file under both roots. -/
inductive Fix.Respelled : Fix → Fix → Prop
  | of (names : List Name) (imports : Nat) :
      Fix.Respelled { path := root.below names, imports } { path := other.below names, imports }

/-- An error of the same file or directory under both roots. -/
inductive RunError.Respelled : RunError → RunError → Prop
  | file (names : List Name) (cause : IoError) :
      RunError.Respelled (.io (root.below names) cause) (.io (other.below names) cause)
  | directory (names : List Name) (cause : IoError) :
      RunError.Respelled (Traversal.listingError (root.below names) cause)
        (Traversal.listingError (other.below names) cause)

/-- A failure of the same file or directory under both roots. -/
inductive Failure.Respelled : Failure → Failure → Prop
  | of {d e : RunError} (h : d.Respelled root other e) :
      Failure.Respelled d.failure e.failure

/-- The same summary under both roots. -/
structure Summary.Respelled (a b : Summary) : Prop where
  dryRun : b.dryRun = a.dryRun
  scanned : b.scanned = a.scanned
  imports : b.imports = a.imports
  fixed : List.Forall₂ (Fix.Respelled root other) a.fixed b.fixed
  failures : List.Forall₂ (Failure.Respelled root other) a.failures b.failures

/-- The same outcome of a step under both roots. -/
inductive Outcome.Respelled : Outcome → Outcome → Prop
  | ignored (names : List Name) :
      Outcome.Respelled (.ignored (root.below names)) (.ignored (other.below names))
  | unlisted (names : List Name) (cause : IoError) :
      Outcome.Respelled (.unlisted (root.below names) cause) (.unlisted (other.below names) cause)
  | unchanged (names : List Name) :
      Outcome.Respelled (.unchanged (root.below names)) (.unchanged (other.below names))
  | fixed {a b : Fix} (h : a.Respelled root other b) : Outcome.Respelled (.fixed a) (.fixed b)
  | broken (names : List Name) (tried : Bool) (cause : IoError) :
      Outcome.Respelled (.broken (root.below names) tried (.io (root.below names) cause))
        (.broken (other.below names) tried (.io (other.below names) cause))

/-- Two runs that have done the same so far to disks that have kept their shape. -/
structure RunState.Respelled {σ τ : Type} (start : Disk) (a : RunState σ) (b : RunState τ) :
    Prop where
  disk : b.disk = a.disk
  shape : a.disk.SameShape start
  summary : a.summary.Respelled root other b.summary

/-- How two runs stand after a step that does the same in both: they go on, or errors of the same
file or directory have ended them. -/
abbrev RunM.BothRespelled {σ τ : Type} (start : Disk) :
    Except RunError Unit × RunState σ → Except RunError Unit × RunState τ → Prop :=
  SideBySide (RunState.Respelled root other start)
    (fun d e a b => d.Respelled root other e ∧ a.Respelled root other start b)
    (fun _ _ _ => False)

end Relations

variable {root other : Path}

namespace Summary.Respelled

variable {a b : Summary} (h : a.Respelled root other b)

include h

theorem countScanned : a.countScanned.Respelled root other b.countScanned :=
  ⟨h.dryRun, congrArg (· + 1) h.scanned, h.imports, h.fixed, h.failures⟩

theorem addFix {file file' : Fix} (hfile : file.Respelled root other file') :
    (a.addFix file).Respelled root other (b.addFix file') := by
  refine ⟨h.dryRun, h.scanned, ?_, List.rel_append h.fixed (.cons hfile .nil), h.failures⟩
  cases hfile with
  | of names imports => exact congrArg (· + UInt64.ofNat imports) h.imports

theorem addFailure {d e : RunError} (herror : d.Respelled root other e) :
    (a.addFailure d.failure).Respelled root other (b.addFailure e.failure) :=
  ⟨h.dryRun, h.scanned, h.imports, h.fixed,
    List.rel_append h.failures (.cons (.of herror) .nil)⟩

end Summary.Respelled

/-- The work of a step is the same in both runs if its outcome is. -/
theorem RunState.Respelled.afterWork {σ τ : Type} {start next : Disk} {a : RunState σ}
    {b : RunState τ} (h : a.Respelled root other start b) {outcome outcome' : Outcome}
    (houtcome : outcome.Respelled root other outcome') (hshape : next.SameShape start)
    (settings settings' : Settings) :
    (a.afterWork settings outcome next).Respelled root other start
      (b.afterWork settings' outcome' next) := by
  refine ⟨rfl, hshape, ?_⟩
  cases houtcome with
  | ignored names => exact h.summary
  | unlisted names cause => exact h.summary
  | unchanged names => exact h.summary.countScanned
  | fixed hfile => exact h.summary.countScanned
  | broken names tried cause => exact h.summary.countScanned

theorem Visit.sameShape_diskAfter (visit : Visit) (settings : Settings) (disk : Disk) :
    (visit.diskAfter settings disk).SameShape disk := by
  cases visit with
  | scan names => exact sameShape_completeFile settings _ disk
  | passBy names => exact .refl disk
  | refuse names cause => exact .refl disk

/-- The work on a file is the same on both paths to it. -/
theorem respelled_completeFile {a b : Settings} (hextension : a.extension = b.extension)
    (hprefixes : a.excludedPrefixes = b.excludedPrefixes) (hdry : a.dryRun = b.dryRun) {disk : Disk}
    {names : List Name} (h : disk.resolve (root.below names) = disk.resolve (other.below names)) :
    let run := completeFile a (root.below names) disk
    let again := completeFile b (other.below names) disk
    (run.outcome (root.below names)).Respelled root other (again.outcome (other.below names)) ∧
      again.disk = run.disk := by
  intro run again
  simp only [run, again, completeFile_congr hextension hprefixes hdry]
  unfold completeFile
  -- The same text is read on both paths, so both runs come to the same case.
  rw [Disk.readText_eq_of_resolve_eq h]
  cases disk.readText (other.below names) with
  | error cause => exact ⟨.broken names false cause, rfl⟩
  | ok content =>
      dsimp only
      split
      · exact ⟨.unchanged names, rfl⟩
      · split
        · exact ⟨.fixed (.of names _), rfl⟩
        · rw [Disk.write_congr h]
          cases disk.write (other.below names)
              (Utf8.encode (completeImports b content).text) with
          | mk result next =>
              cases result with
              | error cause =>
                  have htried (path : Path) : FileRun.outcome path
                      { result := .error (.io path cause), disk := next,
                        events := [.read path, .wrote path false] } =
                      .broken path true (.io path cause) := by
                    simp [FileRun.outcome]
                  rw [htried, htried]
                  exact ⟨.broken names true cause, rfl⟩
              | ok _ => exact ⟨.fixed (.of names _), rfl⟩

namespace Traversal

/-- Two traversals that differ in their roots and reporters alone; neither reporter refuses
anything or touches the disk. -/
structure Respells {σ τ : Type} (first : Traversal σ) (second : Traversal τ) : Prop where
  settings : first.settings = { second.settings with root := first.settings.root }
  ignored : first.ignored = second.ignored
  neverFails : first.reporter.NeverFails
  otherNeverFails : second.reporter.NeverFails
  leavesDisk : first.reporter.LeavesDisk
  otherLeavesDisk : second.reporter.LeavesDisk

namespace Respells

variable {σ τ : Type} {first : Traversal σ} {second : Traversal τ} (hpair : first.Respells second)
  {start : Disk} {a : RunState σ} {b : RunState τ}

include hpair

theorem onFailure : first.settings.onFailure = second.settings.onFailure := by
  rw [hpair.settings]

/-- Whatever the reporters are told, the disks stay as they are. -/
theorem respelled_told (h : a.Respelled root other start b) (callback callback' : Callback) :
    (a.told first.reporter callback).Respelled root other start
      (b.told second.reporter callback') := by
  have hdisk : (a.told first.reporter callback).disk = a.disk := hpair.leavesDisk _ _
  have hdisk' : (b.told second.reporter callback').disk = b.disk := hpair.otherLeavesDisk _ _
  exact ⟨(hdisk'.trans h.disk).trans hdisk.symm, hdisk ▸ h.shape, h.summary⟩

/-- What both reporters are told they accept, and it is counted in both summaries. -/
theorem respelled_tell_summarize (h : a.Respelled root other start b)
    (callback callback' : Callback) {update update' : Summary → Summary}
    (hupdate : (update a.summary).Respelled root other (update' b.summary)) :
    BothRespelled root other start (exec (do first.tell callback; summarize update) a)
      (exec (do second.tell callback'; summarize update') b) := by
  have htold := hpair.respelled_told h callback callback'
  rw [exec_tell_summarize, exec_tell_summarize, hpair.neverFails, hpair.otherNeverFails]
  exact .going ⟨htold.disk, htold.shape, hupdate⟩

/-- An error stops both runs, or both record it. -/
theorem respelled_fail (h : a.Respelled root other start b) {d e : RunError}
    (herror : d.Respelled root other e) :
    BothRespelled root other start (exec (first.fail d) a) (exec (second.fail e) b) := by
  cases hpolicy : first.settings.onFailure with
  | stop =>
      rw [exec_fail_of_stop hpolicy, exec_fail_of_stop (hpair.onFailure ▸ hpolicy)]
      exact .ended ⟨herror, h⟩
  | goOn =>
      rw [exec_fail_eq_tell a hpolicy, exec_fail_eq_tell b (hpair.onFailure ▸ hpolicy)]
      refine hpair.respelled_tell_summarize ?_ _ _ (h.summary.addFailure herror)
      exact ⟨h.disk, h.shape, h.summary⟩

/-- What is done about an outcome is the same in both runs. -/
theorem respelled_settle (h : a.Respelled root other start b) {outcome outcome' : Outcome}
    (houtcome : outcome.Respelled root other outcome') :
    BothRespelled root other start (exec (first.settle outcome) a)
      (exec (second.settle outcome') b) := by
  cases houtcome with
  | ignored names => exact .going h
  | unlisted names cause => exact hpair.respelled_fail h (.directory names cause)
  | unchanged names => exact .going h
  | fixed hfile => exact hpair.respelled_tell_summarize h _ _ (h.summary.addFix hfile)
  | broken names tried cause => exact hpair.respelled_fail h (.file names cause)

/-- What comes of a visit is the same under both roots, if its file is. -/
theorem respelled_outcome {visit : Visit} {disk : Disk}
    (hvisit : ∀ names, visit = .scan names →
      disk.resolve (first.settings.root.below names) =
        disk.resolve (second.settings.root.below names)) :
    (visit.outcome first.settings disk).Respelled first.settings.root second.settings.root
        (visit.outcome second.settings disk) ∧
      visit.diskAfter second.settings disk = visit.diskAfter first.settings disk := by
  cases visit with
  | scan names =>
      have hextension := congrArg Settings.extension hpair.settings
      have hprefixes := congrArg Settings.excludedPrefixes hpair.settings
      have hdry := congrArg Settings.dryRun hpair.settings
      exact respelled_completeFile hextension hprefixes hdry (hvisit names rfl)
  | passBy names => exact ⟨.ignored names, rfl⟩
  | refuse names cause => exact ⟨.unlisted names cause, rfl⟩

/-- A visit does the same in both runs. -/
theorem respelled_perform {visit : Visit}
    (hvisit : ∀ names, visit = .scan names →
      start.resolve (first.settings.root.below names) =
        start.resolve (second.settings.root.below names))
    (h : a.Respelled first.settings.root second.settings.root start b) :
    BothRespelled first.settings.root second.settings.root start
      (exec (first.perform visit) a) (exec (second.perform visit) b) := by
  -- The visits before have kept the shape of the disk, so its paths lead where they did.
  have hnow : ∀ names, visit = .scan names →
      a.disk.resolve (first.settings.root.below names) =
        a.disk.resolve (second.settings.root.below names) := by
    intro names hscan
    rw [h.shape.resolve_eq, h.shape.resolve_eq, hvisit names hscan]
  obtain ⟨houtcome, hafter⟩ := hpair.respelled_outcome hnow
  have hshape := (visit.sameShape_diskAfter first.settings a.disk).trans h.shape
  rw [visit.exec_perform_eq_settle, visit.exec_perform_eq_settle, h.disk, hafter]
  exact hpair.respelled_settle (h.afterWork houtcome hshape _ _) houtcome

/-- So it is with visits after each other. -/
theorem respelled_visits {visits : List Visit}
    (hvisits : ∀ names, .scan names ∈ visits →
      start.resolve (first.settings.root.below names) =
        start.resolve (second.settings.root.below names))
    (h : a.Respelled first.settings.root second.settings.root start b) :
    BothRespelled first.settings.root second.settings.root start
      (exec (visits.forM first.perform) a) (exec (visits.forM second.perform) b) := by
  refine sideBySide_forM ?_ ?_ h
  · intro visit hvisit s t hst
    exact hpair.respelled_perform (fun names hscan => hvisits names (hscan ▸ hvisit)) hst
  · exact fun _ _ _ _ _ hnever => hnever

/-- Both runs report their summaries and return them, if no error has ended them before. -/
theorem respelled_visits_finish {visits : List Visit}
    (hvisits : ∀ names, .scan names ∈ visits →
      start.resolve (first.settings.root.below names) =
        start.resolve (second.settings.root.below names))
    (h : a.Respelled first.settings.root second.settings.root start b) :
    let x := exec (do visits.forM first.perform; first.finish) a
    let y := exec (do visits.forM second.perform; second.finish) b
    x.2.Respelled first.settings.root second.settings.root start y.2 ∧
      (x.1 = .ok x.2.summary ∧ y.1 = .ok y.2.summary ∨
        ∃ d e, x.1 = .error d ∧ y.1 = .error e ∧
          d.Respelled first.settings.root second.settings.root e) := by
  intro x y
  have hboth := hpair.respelled_visits hvisits h
  simp only [x, y, exec_bind]
  cases hfirst : exec (visits.forM first.perform) a with
  | mk result s =>
      cases hsecond : exec (visits.forM second.perform) b with
      | mk result' t =>
          rw [hfirst, hsecond] at hboth
          cases hboth with
          | going hst =>
              simp only [exec_finish, hpair.neverFails _ _, hpair.otherNeverFails _ _]
              exact ⟨hpair.respelled_told hst _ _, .inl ⟨rfl, rfl⟩⟩
          | ended hended =>
              obtain ⟨herror, hst⟩ := hended
              exact ⟨hst, .inr ⟨_, _, rfl, rfl, herror⟩⟩
          | cut hnever => exact hnever.elim

section Run

variable {disk : Disk} {place : Location} {memory : σ} {memory' : τ}
  (hignored : Glob.parseAll first.settings.ignorePatterns = .ok first.ignored)
  (hroot : disk.resolveNode first.settings.root = .ok (place, .dir))
  (hother : disk.resolveNode second.settings.root = .ok (place, .dir))
  (hinput : first.settings.root.isStandardInput = false)
  (hinput' : second.settings.root.isStandardInput = false)
  (hlimits : disk.WithinLimits place first.settings.root second.settings.root)

include hignored hroot hother hinput hinput' hlimits

omit hignored in
/-- Both runs carry out the same visits. -/
theorem itinerary_eq : second.itinerary disk .dir = first.itinerary disk .dir := by
  obtain ⟨hresolve, hplace⟩ := Disk.resolveNode_eq_ok_iff.1 hroot
  obtain ⟨hresolve', -⟩ := Disk.resolveNode_eq_ok_iff.1 hother
  have hsuffixes := congrArg Settings.suffixes hpair.settings
  exact (itinerary_eq_of_withinLimits hsuffixes hpair.ignored hresolve hresolve' hlimits hplace
    hinput hinput').symm

omit hroot hother hinput hinput' hlimits in
theorem parseAll_eq : Glob.parseAll second.settings.ignorePatterns = .ok second.ignored := by
  have hpatterns : first.settings.ignorePatterns = second.settings.ignorePatterns := by
    rw [hpair.settings]
  rw [← hpatterns, hignored, hpair.ignored]

/-- Two runs whose patterns can be read end alike. -/
theorem respelled_run :
    let a := completeTree first.settings first.reporter memory disk
    let b := completeTree second.settings second.reporter memory' disk
    a.final.Respelled first.settings.root second.settings.root disk b.final ∧
      (a.result = .ok a.final.summary ∧ b.result = .ok b.final.summary ∨
        ∃ d e, a.result = .error d ∧ b.result = .error e ∧
          d.Respelled first.settings.root second.settings.root e) := by
  intro a b
  obtain ⟨hresolve, hplace⟩ := Disk.resolveNode_eq_ok_iff.1 hroot
  obtain ⟨hresolve', -⟩ := Disk.resolveNode_eq_ok_iff.1 hother
  have hdry : second.settings.dryRun = first.settings.dryRun := by
    rw [hpair.settings]
  have hinitial : (RunState.initial first.settings memory disk).Respelled first.settings.root
      second.settings.root disk (.initial second.settings memory' disk) :=
    ⟨rfl, .refl disk, hdry, rfl, rfl, .nil, .nil⟩
  have hends := hpair.respelled_visits_finish (fun names hscan =>
    first.resolve_eq_of_scan_mem hignored hresolve hlimits hplace hinput hresolve' hscan) hinitial
  let x := exec (do
    (first.itinerary disk .dir).forM first.perform
    first.finish) (.initial first.settings memory disk)
  let y := exec (do
    (first.itinerary disk .dir).forM second.perform
    second.finish) (.initial second.settings memory' disk)
  have ha : a = { result := x.1, final := x.2 } :=
    completeTree_eq_visits hignored hpair.leavesDisk (Disk.stat_of_resolveNode hroot)
  have hb : b = { result := y.1, final := y.2 } := by
    simp only [y, ← hpair.itinerary_eq hroot hother hinput hinput' hlimits]
    exact completeTree_eq_visits (hpair.parseAll_eq hignored) hpair.otherLeavesDisk
      (Disk.stat_of_resolveNode hother)
  rw [ha, hb]
  exact hends

/-- Where both return summaries, they have taken up the candidates that are reached through
directories that can be read. -/
theorem exists_scanned {summary summary' : Summary} :
    let a := completeTree first.settings first.reporter memory disk
    let b := completeTree second.settings second.reporter memory' disk
    a.result = .ok summary → b.result = .ok summary' →
      ∃ found : List (List Name), a.final.scanned = found.map first.settings.root.below ∧
        b.final.scanned = found.map second.settings.root.below ∧
        ∀ names, names ∈ found ↔ Candidate first.settings disk place names ∧
          ∀ above, above <+: names → above ≠ names → disk.Readable (place ++ above) := by
  intro a b hresult hresult'
  obtain ⟨hresolve, hplace⟩ := Disk.resolveNode_eq_ok_iff.1 hroot
  have hscanned := (scanned_of_completeTree hpair.leavesDisk hignored
    (Disk.stat_of_resolveNode hroot) hresult).1
  have hscanned' := (scanned_of_completeTree hpair.otherLeavesDisk (hpair.parseAll_eq hignored)
    (Disk.stat_of_resolveNode hother) hresult').1
  have hsame : (second.itinerary disk .dir).filterMap Visit.scanned? =
      (first.itinerary disk .dir).filterMap Visit.scanned? := by
    rw [hpair.itinerary_eq hroot hother hinput hinput' hlimits]
  refine ⟨(first.itinerary disk .dir).filterMap Visit.scanned?, hscanned, ?_, ?_⟩
  · rw [← hsame]
    exact hscanned'
  · intro names
    rw [mem_filterMap_scanned?_iff]
    exact first.scan_mem_itinerary_iff_of_withinLimits hignored hresolve hlimits hplace hinput

end Run

end Respells

end Traversal

section Run

variable {σ τ : Type}

/-- A run from one root and a run from the other one, where both roots are paths to one directory
and neither stands for the standard input, with reporters that refuse nothing and leave the disk
alone and with no path beyond the limits of the system.  They leave the same disk, and what the
one reports of it is what the other one does, with its own root in the place of the other.  If
they return summaries they have taken up the candidates that are reached through directories that
can be read; if not, errors of the same file or directory have ended them, which only is so where
errors are to stop a run, or the same pattern that cannot be read. -/
theorem respelled_completeTree (settings : Settings) (root other : Path) (first : Reporter σ)
    (second : Reporter τ) (memory : σ) (memory' : τ) (disk : Disk) (place : Location)
    (hroot : disk.resolveNode root = .ok (place, .dir))
    (hother : disk.resolveNode other = .ok (place, .dir))
    (hinput : root.isStandardInput = false) (hinput' : other.isStandardInput = false)
    (hlimits : disk.WithinLimits place root other) (hfails : first.NeverFails)
    (hfails' : second.NeverFails) (hdisk : first.LeavesDisk) (hdisk' : second.LeavesDisk) :
    let a := completeTree { settings with root } first memory disk
    let b := completeTree { settings with root := other } second memory' disk
    b.final.disk = a.final.disk ∧ a.final.summary.Respelled root other b.final.summary ∧
      ((a.result = .ok a.final.summary ∧ b.result = .ok b.final.summary ∧
          ∃ found : List (List Name), a.final.scanned = found.map root.below ∧
            b.final.scanned = found.map other.below ∧
            ∀ names, names ∈ found ↔ Candidate { settings with root } disk place names ∧
              ∀ above, above <+: names → above ≠ names → disk.Readable (place ++ above)) ∨
        (settings.onFailure = .stop ∧
          ∃ d e, a.result = .error d ∧ b.result = .error e ∧ d.Respelled root other e) ∨
        ∃ e, Glob.parseAll settings.ignorePatterns = .error e ∧ a.result = .error e ∧
          b.result = .error e) := by
  intro a b
  cases hignored : Glob.parseAll settings.ignorePatterns with
  | error e =>
      have hrun : a = _ := completeTree_of_parseAll_error hignored
      have hrun' : b = _ := completeTree_of_parseAll_error hignored
      rw [hrun, hrun']
      exact ⟨rfl, ⟨rfl, rfl, rfl, .nil, .nil⟩, .inr (.inr ⟨e, rfl, rfl, rfl⟩)⟩
  | ok ignored =>
      let walk : Traversal σ := { settings := { settings with root }, ignored, reporter := first }
      let walk' : Traversal τ :=
        { settings := { settings with root := other }, ignored, reporter := second }
      have hpair : walk.Respells walk' := ⟨rfl, rfl, hfails, hfails', hdisk, hdisk'⟩
      obtain ⟨hfinal, hends⟩ :=
        hpair.respelled_run hignored hroot hother hinput hinput' hlimits
      refine ⟨hfinal.disk, hfinal.summary, ?_⟩
      rcases hends with ⟨hok, hok'⟩ | ⟨d, e, hd, he, herror⟩
      · exact .inl ⟨hok, hok',
          hpair.exists_scanned hignored hroot hother hinput hinput' hlimits hok hok'⟩
      · refine .inr (.inl ⟨?_, d, e, hd, he, herror⟩)
        cases hpolicy : settings.onFailure with
        | stop => rfl
        | goOn =>
            -- A run that goes on after errors returns a summary.
            have hreturns : ∃ summary,
                (completeTree walk.settings first memory disk).result = .ok summary :=
              exists_completeTree_ok memory hdisk hfails hpolicy hignored
                (Disk.stat_of_resolveNode hroot)
            obtain ⟨summary, hok⟩ := hreturns
            exact nomatch hd.symm.trans hok

end Run

/-- Another path to the directory of the sample: over its link and back, and with more slashes
than needed. -/
def sampleOther : Path :=
  Path.ofString "./r/../d//"

/-- The summary of the sample, which was made from its link, is that of the other path as well. -/
theorem respelled_completeTree_sample :
    let run := completeTree { sampleSettings with root := sampleOther } .silent () sampleDisk
    sampleSettings.root ≠ sampleOther ∧ run.result = .ok run.final.summary ∧
      sampleSummary.Respelled sampleSettings.root sampleOther run.final.summary ∧
      run.final.disk = (completeTree sampleSettings .silent () sampleDisk).final.disk := by
  intro run
  have hother : sampleDisk.resolveNode sampleOther = .ok (samplePlace, .dir) :=
    eq_ok_of_toOption (by decide +kernel)
  have hlimits : sampleDisk.WithinLimits samplePlace sampleSettings.root sampleOther :=
    Disk.withinLimits_of_nodes (by decide +kernel) (by decide +kernel) (by decide +kernel)
  obtain ⟨hdisk, hsummary, hends⟩ :=
    respelled_completeTree sampleSettings sampleSettings.root sampleOther .silent .silent () ()
      sampleDisk samplePlace resolveNode_sample hother (by decide +kernel) (by decide +kernel)
      hlimits Reporter.silent_neverFails Reporter.silent_neverFails Reporter.silent_leavesDisk
      Reporter.silent_leavesDisk
  have hresult := result_completeTree_sample
  rcases hends with ⟨hok, hok', -⟩ | ⟨-, d, e, herror, -⟩ | ⟨e, -, herror, -⟩
  · have hfinal := Except.ok.inj (hok.symm.trans hresult)
    rw [hfinal] at hsummary
    exact ⟨by decide +kernel, hok', hsummary, hdisk⟩
  · exact nomatch herror.symm.trans hresult
  · exact nomatch herror.symm.trans hresult

/-- A directory with the name that stands for the standard input. -/
def dashDisk : Disk where
  nodes :=
    [((Path.ofString "-").names, .dir),
      ((Path.ofString "-/a.ts").names, .file (Utf8.ofString "import a from './a';\n"))]

/-- So it is not true of all paths to one directory that runs from them leave the same disk. -/
theorem not_forall_respelled :
    ¬∀ (settings : Settings) (root other : Path) (disk : Disk) (place : Location),
      disk.resolveNode root = .ok (place, .dir) → disk.resolveNode other = .ok (place, .dir) →
      disk.WithinLimits place root other →
        (completeTree { settings with root } .silent () disk).final.disk =
          (completeTree { settings with root := other } .silent () disk).final.disk := by
  intro h
  let dash := Path.ofString "-"
  let dotted := Path.ofString "./-"
  have hlimits : dashDisk.WithinLimits dash.names dash dotted :=
    Disk.withinLimits_of_nodes (by decide +kernel) (by decide +kernel) (by decide +kernel)
  have hsame := h {} dash dotted dashDisk dash.names (eq_ok_of_toOption (by decide +kernel))
    (eq_ok_of_toOption (by decide +kernel)) hlimits
  -- From the one root nothing was written, from the other one the file was.
  have hnone : (completeTree { root := dash } .silent () dashDisk).final.disk.journal = [] := by
    decide +kernel
  have hsome : (completeTree { root := dotted } .silent () dashDisk).final.disk.journal ≠ [] := by
    decide +kernel
  exact hsome (hsame ▸ hnone)

end ExplicitImports
