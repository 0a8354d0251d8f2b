import ExplicitImports.Proofs.Report.Kept
import ExplicitImports.Proofs.Walk.Rewritten

/-!
# Dry runs

A dry run reads files that no run has written to, and a run that is not dry may come by a
link to a file that it has completed before.  Side by side from the same disk, the two make
the same visits:

* `Disk.SameFile`, `Disk.firsts` — paths that lead to one file, and the files of a list that
  no earlier one is the same as.
* `Mirrors`, `mirrors_completeFile` — the work on a file comes to the same in both, but that
  a file that was completed before has nothing left to complete.
* `Abreast`, `abreast_visits` — what the two have in common, kept by every visit.
* `dryRun_completeTree` — a dry run against a run that is not dry: how they end, what they
  take up, what fails and what is fixed.
-/

namespace ExplicitImports

open RunM

namespace Disk

/-- Both paths lead to the same location. -/
def SameFile (disk : Disk) (a b : Path) : Prop :=
  ∃ place, disk.resolve a = .ok place ∧ disk.resolve b = .ok place

instance (disk : Disk) (a b : Path) : Decidable (disk.SameFile a b) :=
  decidable_of_iff (∃ place ∈ (disk.resolve a).toOption, (disk.resolve b).toOption = some place) <| by
    unfold SameFile
    cases disk.resolve a <;> cases disk.resolve b <;> simp [Except.toOption]

/-- The files of a list without those that an earlier one is the same file as. -/
def firsts (disk : Disk) : List Fix → List Fix
  | [] => []
  | file :: rest => file :: (disk.firsts rest).filter fun other => ¬disk.SameFile file.path other.path

section Firsts

variable (disk : Disk)

theorem firsts_concat (files : List Fix) (file : Fix) :
    disk.firsts (files ++ [file]) = disk.firsts files ++
      if ∃ earlier ∈ files, disk.SameFile earlier.path file.path then [] else [file] := by
  induction files with
  | nil => simp [firsts]
  | cons first files ih =>
      rw [List.cons_append, firsts, ih, List.filter_append, firsts, List.cons_append]
      congr 2
      simp only [List.mem_cons, exists_eq_or_imp]
      by_cases hfirst : disk.SameFile first.path file.path <;>
        by_cases hrest : ∃ earlier ∈ files, disk.SameFile earlier.path file.path <;>
        simp [hfirst, hrest]

theorem firsts_sublist (files : List Fix) : (disk.firsts files).Sublist files := by
  induction files with
  | nil => exact .slnil
  | cons file files ih => exact (List.filter_sublist.trans ih).cons_cons file

/-- Nothing is left out exactly when no two files of the list are the same. -/
theorem firsts_eq_self_iff (files : List Fix) :
    disk.firsts files = files ↔ files.Pairwise fun a b => ¬disk.SameFile a.path b.path := by
  induction files with
  | nil => simp [firsts]
  | cons file files ih =>
      rw [firsts, List.pairwise_cons, ← ih, List.cons_inj_right]
      constructor
      · intro hsame
        have hkept : files.Sublist (disk.firsts files) := by
          nth_rewrite 1 [← hsame]
          exact List.filter_sublist
        refine ⟨?_, (disk.firsts_sublist files).antisymm hkept⟩
        intro other hother
        rw [← hsame, List.mem_filter] at hother
        simpa using hother.2
      · intro hboth
        obtain ⟨hfirst, hrest⟩ := hboth
        rw [hrest, List.filter_eq_self]
        simpa using hfirst

end Firsts

/-- Some file of the list leads to the location. -/
def FixedAt (disk : Disk) (files : List Fix) (place : Location) : Prop :=
  ∃ file ∈ files, disk.resolve file.path = .ok place

theorem fixedAt_iff {disk : Disk} {path : Path} {place : Location}
    (hplace : disk.resolve path = .ok place) (files : List Fix) :
    disk.FixedAt files place ↔ ∃ earlier ∈ files, disk.SameFile earlier.path path := by
  simp [FixedAt, SameFile, hplace]

theorem fixedAt_concat (disk : Disk) (files : List Fix) (file : Fix) :
    disk.FixedAt (files ++ [file]) =
      fun place => disk.FixedAt files place ∨ disk.resolve file.path = .ok place := by
  ext place
  simp [FixedAt, or_and_right, exists_or]

theorem fixedAt_concat_of_fixedAt {disk : Disk} {files : List Fix} {file : Fix} {place : Location}
    (hplace : disk.resolve file.path = .ok place) (hfixed : disk.FixedAt files place) :
    disk.FixedAt (files ++ [file]) = disk.FixedAt files := by
  rw [fixedAt_concat]
  ext there
  refine or_iff_left_of_imp ?_
  intro hthere
  rw [hplace] at hthere
  cases hthere
  exact hfixed

end Disk

/-- What comes of a step in a dry run that has fixed some files so far, and what comes of it
where these files were completed. -/
inductive Mirrors (disk : Disk) (files : List Fix) : Outcome → Outcome → Prop
  | same {outcome : Outcome} (hnone : outcome.fixed? = none) : Mirrors disk files outcome outcome
  | fixed (file : Fix) (hnew : ¬∃ earlier ∈ files, disk.SameFile earlier.path file.path) :
      Mirrors disk files (.fixed file) (.fixed file)
  | again (file : Fix) (hold : ∃ earlier ∈ files, disk.SameFile earlier.path file.path) :
      Mirrors disk files (.fixed file) (.unchanged file.path)

namespace Mirrors

variable {disk : Disk} {files : List Fix} {outcome mirrored : Outcome}

theorem error?_eq (h : Mirrors disk files outcome mirrored) : mirrored.error? = outcome.error? := by
  cases h <;> rfl

theorem scanned?_eq (h : Mirrors disk files outcome mirrored) :
    mirrored.scanned? = outcome.scanned? := by
  cases h <;> rfl

theorem firsts_eq (h : Mirrors disk files outcome mirrored) :
    disk.firsts (files ++ outcome.fixed?.toList) =
      disk.firsts files ++ mirrored.fixed?.toList := by
  cases h with
  | same hnone => simp [hnone]
  | fixed file hnew =>
      show disk.firsts (files ++ [file]) = _ ++ [file]
      rw [disk.firsts_concat, if_neg hnew]
  | again file hold =>
      show disk.firsts (files ++ [file]) = _ ++ []
      rw [disk.firsts_concat, if_pos hold]

end Mirrors

section Mirrored

variable {settings : Settings} (hdry : settings.dryRun = false)
  (hext : '\'' ∉ settings.extension.toList) {disk written : Disk} {files : List Fix}
  (hshape : written.SameShape disk)
  (hcompleted : disk.CompletedAt settings (disk.FixedAt files) written)

include hdry hext hshape hcompleted

/-- The work on a file, and the disk that it leaves, in a dry run and otherwise. -/
theorem mirrors_completeFile (path : Path)
    (hwrites : ∀ other, .wrote other false ∉ (completeFile settings path written).events) :
    let outcome := (completeFile { settings with dryRun := true } path disk).outcome path
    Mirrors disk files outcome ((completeFile settings path written).outcome path) ∧
      disk.CompletedAt settings (disk.FixedAt (files ++ outcome.fixed?.toList))
        (completeFile settings path written).disk := by
  have hcongr : completeImports { settings with dryRun := true } = completeImports settings :=
    completeImports_congr rfl rfl
  have hcase := fileCase_completeFile { settings with dryRun := true } path disk
  generalize completeFile { settings with dryRun := true } path disk = run at hcase ⊢
  -- What the dry run reads decides how its work goes; what the other run reads follows from
  -- that and from which files were completed.
  cases hcase with
  | unread hread =>
      rw [completeFile_of_error (hcompleted.readText_error hshape hread)]
      exact ⟨.same rfl, by simpa [FileRun.outcome, Outcome.fixed?] using hcompleted⟩
  | unchanged hread hsame =>
      rw [hcongr] at hsame
      have hlater := hcompleted.readText_of_unchanged hshape hread hsame
      rw [completeFile_of_unchanged hlater hsame]
      exact ⟨.same rfl, by simpa [FileRun.outcome, Outcome.fixed?] using hcompleted⟩
  | @unwritten content imports hread himports hpos _ =>
      rw [hcongr] at himports
      obtain ⟨place, node, hnode, hopen, -⟩ := Disk.exists_of_readText hread
      have hplace := (Disk.resolveNode_eq_ok_iff.1 hnode).1
      show Mirrors disk files (.fixed ⟨path, imports⟩) _ ∧
        disk.CompletedAt settings (disk.FixedAt (files ++ [⟨path, imports⟩])) _
      by_cases hfixed : disk.FixedAt files place
      · -- The file was completed before, so nothing is left to do.
        have hlater := hcompleted.readText_of_inside hshape hplace hfixed hread
        rw [completeFile_of_unchanged hlater (not_changesText_completeImports hext content)]
        refine ⟨.again _ ((Disk.fixedAt_iff hplace files).1 hfixed), ?_⟩
        rw [Disk.fixedAt_concat_of_fixedAt hplace hfixed]
        exact hcompleted
      · have hlater := hcompleted.readText_of_outside hshape hplace hfixed
        rw [hread] at hlater
        have hchanges : (completeImports settings content).changesText = true :=
          Completion.changesText_iff.2 (himports ▸ hpos)
        have hresult := result_completeFile_of_changed hlater hchanges hdry hwrites
        rw [himports] at hresult
        have houtcome : (completeFile settings path written).outcome path =
            .fixed ⟨path, imports⟩ := by
          unfold FileRun.outcome
          rw [hresult]
        rw [houtcome]
        refine ⟨.fixed _ (mt (Disk.fixedAt_iff hplace files).2 hfixed), ?_⟩
        rw [disk.fixedAt_concat]
        have hthere (there : Location) : written.resolve path = .ok there ∧ written.Readable there ↔
            disk.resolve path = .ok there := by
          rw [hshape.resolve_eq, hshape.readable_iff, and_iff_left_iff_imp, hplace]
          intro hsame
          cases hsame
          exact hopen
        have hboth := hcompleted.trans hext (completedAt_completeFile hdry hwrites)
        simpa only [hthere] using hboth
  | refused hread hpos hwet hwrite => cases hwet
  | written hread himports hpos hwet hwrite => cases hwet

end Mirrored

/-- A dry run and one that is not dry after the same visits: the dry run has left the disk as
it is; the other one has completed the files that the dry run has fixed, and of these it has
fixed the ones that are not the same file as an earlier one. -/
structure Abreast {σ τ : Type} (settings : Settings) (disk : Disk) (dry : RunState σ)
    (real : RunState τ) : Prop where
  disk_eq : dry.disk = disk
  shape : real.disk.SameShape disk
  completed : disk.CompletedAt settings (disk.FixedAt dry.fixed) real.disk
  scanned : real.scanned = dry.scanned
  failed : real.failed = dry.failed
  fixed : real.fixed = disk.firsts dry.fixed

namespace Traversal

/-- The one traversal is the dry form of the other, no quote comes with the extension, and
neither reporter refuses anything or touches the disk. -/
structure Rehearses {σ τ : Type} (dry : Traversal σ) (real : Traversal τ) : Prop where
  settings : dry.settings = { real.settings with dryRun := true }
  ignored : dry.ignored = real.ignored
  dryRun : real.settings.dryRun = false
  extension : '\'' ∉ real.settings.extension.toList
  dryNeverFails : dry.reporter.NeverFails
  dryLeavesDisk : dry.reporter.LeavesDisk
  realNeverFails : real.reporter.NeverFails
  realLeavesDisk : real.reporter.LeavesDisk

namespace Rehearses

variable {σ τ : Type} {dry : Traversal σ} {real : Traversal τ} (hpair : dry.Rehearses real)
  {disk : Disk} {first : RunState σ} {second : RunState τ}

include hpair

theorem itinerary_eq (disk : Disk) (kind : NodeKind) :
    dry.itinerary disk kind = real.itinerary disk kind := by
  apply itinerary_congr
  · rw [hpair.settings]
  · rw [hpair.settings]
  · exact hpair.ignored

/-- What is done about outcomes that mirror each other keeps the runs abreast. -/
theorem abreast_settle (h : Abreast real.settings disk first second) {outcome mirrored : Outcome}
    {next : Disk} (hmirrors : Mirrors disk first.fixed outcome mirrored)
    (hshape : next.SameShape disk)
    (hcompleted : disk.CompletedAt real.settings
      (disk.FixedAt (first.fixed ++ outcome.fixed?.toList)) next) :
    let a := exec (dry.settle outcome) (first.afterWork dry.settings outcome disk)
    let b := exec (real.settle mirrored) (second.afterWork real.settings mirrored next)
    a.1 = b.1 ∧ Abreast real.settings disk a.2 b.2 := by
  intro a b
  have hpolicy : dry.settings.onFailure = real.settings.onFailure := by rw [hpair.settings]
  have hleft : b.2.disk = next := (onlyTold_settle mirrored _ hpair.realLeavesDisk).disk
  refine ⟨?_, (onlyTold_settle outcome _ hpair.dryLeavesDisk).disk, ?_, ?_, ?_, ?_, ?_⟩
  · rw [exec_settle_of_neverFails outcome _ hpair.dryNeverFails,
      exec_settle_of_neverFails mirrored _ hpair.realNeverFails, hmirrors.error?_eq, hpolicy]
  · rw [hleft]
    exact hshape
  · rw [hleft, fixed_exec_settle]
    exact hcompleted
  · rw [scanned_exec_settle, scanned_exec_settle, h.scanned, hmirrors.scanned?_eq]
  · rw [failed_exec_settle, failed_exec_settle, h.failed, hpolicy]
    unfold Outcome.failure?
    rw [hmirrors.error?_eq]
  · rw [fixed_exec_settle, fixed_exec_settle, h.fixed, hmirrors.firsts_eq]

/-- A visit keeps the runs abreast, if no write is given up. -/
theorem abreast_perform (h : Abreast real.settings disk first second) (visit : Visit)
    (hwrites : ∀ path, .file (.wrote path false) ∉ (exec (real.perform visit) second).2.trace) :
    (exec (dry.perform visit) first).1 = (exec (real.perform visit) second).1 ∧
      Abreast real.settings disk (exec (dry.perform visit) first).2
        (exec (real.perform visit) second).2 := by
  have hroot : dry.settings.root = real.settings.root := by rw [hpair.settings]
  have hdry : dry.settings.dryRun = true := by rw [hpair.settings]
  rw [visit.exec_perform_eq_settle real, trace_exec_settle_afterWork] at hwrites
  rw [visit.exec_perform_eq_settle dry, visit.exec_perform_eq_settle real, h.disk_eq]
  unfold Visit.outcome Visit.diskAfter
  cases visit with
  | scan names =>
      let path := real.settings.root.below names
      have hwork : ∀ other,
          .wrote other false ∉ (completeFile real.settings path second.disk).events := by
        intro other hother
        apply hwrites other
        unfold Visit.outcome Outcome.events
        rw [work_outcome_completeFile]
        simp [hother, path]
      obtain ⟨hmirrors, hafter⟩ :=
        mirrors_completeFile hpair.dryRun hpair.extension h.shape h.completed path hwork
      have hshape := (sameShape_completeFile real.settings path second.disk).trans h.shape
      dsimp only
      rw [hroot, disk_completeFile_of_dryRun hdry path disk]
      rw [← hpair.settings] at hmirrors hafter
      exact hpair.abreast_settle h hmirrors hshape hafter
  | passBy names =>
      dsimp only
      rw [hroot]
      exact hpair.abreast_settle h (.same rfl) h.shape (by simpa [Outcome.fixed?] using h.completed)
  | refuse names cause =>
      dsimp only
      rw [hroot]
      exact hpair.abreast_settle h (.same rfl) h.shape (by simpa [Outcome.fixed?] using h.completed)

/-- Visits keep the runs abreast. -/
theorem abreast_visits (h : Abreast real.settings disk first second) (visits : List Visit)
    (hwrites : ∀ path, .file (.wrote path false) ∉
      (exec (visits.forM real.perform) second).2.trace) :
    (exec (visits.forM dry.perform) first).1 = (exec (visits.forM real.perform) second).1 ∧
      Abreast real.settings disk (exec (visits.forM dry.perform) first).2
        (exec (visits.forM real.perform) second).2 := by
  induction visits generalizing first second with
  | nil => exact ⟨rfl, h⟩
  | cons visit visits ih =>
      have hstep := hpair.abreast_perform h visit
      have hlater := trace_le_visits hpair.realLeavesDisk visits
        (exec (real.perform visit) second).2
      rw [exec_forM_cons] at hwrites
      rw [exec_forM_cons, exec_forM_cons]
      cases hfirst : exec (dry.perform visit) first with
      | mk result dryNext =>
          cases hsecond : exec (real.perform visit) second with
          | mk result' realNext =>
              rw [hfirst, hsecond] at hstep
              rw [hsecond] at hwrites hlater
              cases result' with
              | error e =>
                  obtain ⟨hresult, habreast⟩ := hstep hwrites
                  cases hresult
                  exact ⟨rfl, habreast⟩
              | ok _ =>
                  -- A write that is given up now would still be in the trace at the end.
                  obtain ⟨hresult, habreast⟩ := hstep fun path hwrote =>
                    hwrites path (hlater.subset hwrote)
                  cases hresult
                  exact ih habreast hwrites

/-- The reports of both summaries keep the runs abreast. -/
theorem abreast_finish (h : Abreast real.settings disk first second) :
    (exec dry.finish first).1.map (fun _ => ()) = (exec real.finish second).1.map (fun _ => ()) ∧
      Abreast real.settings disk (exec dry.finish first).2 (exec real.finish second).2 := by
  have hdry := (onlyTold_finish hpair.dryLeavesDisk first).disk
  have hreal := (onlyTold_finish hpair.realLeavesDisk second).disk
  rw [exec_finish] at hdry hreal ⊢
  rw [exec_finish, hpair.dryNeverFails, hpair.realNeverFails]
  refine ⟨rfl, hdry.trans h.disk_eq, ?_, ?_, ?_, ?_, ?_⟩
  · rw [hreal]
    exact h.shape
  · rw [hreal, RunState.fixed_told_done]
    exact h.completed
  · simpa using h.scanned
  · simpa using h.failed
  · simpa using h.fixed

/-- Visits and the reports after them keep the runs abreast. -/
theorem abreast_visits_finish (h : Abreast real.settings disk first second) (visits : List Visit)
    (hwrites : ∀ path, .file (.wrote path false) ∉
      (exec (do visits.forM real.perform; real.finish) second).2.trace) :
    let a := exec (do visits.forM dry.perform; dry.finish) first
    let b := exec (do visits.forM real.perform; real.finish) second
    a.1.map (fun _ => ()) = b.1.map (fun _ => ()) ∧ Abreast real.settings disk a.2 b.2 := by
  intro a b
  have hvisits := hpair.abreast_visits h visits
  simp only [a, b]
  rw [exec_bind] at hwrites
  rw [exec_bind, exec_bind]
  cases hfirst : exec (visits.forM dry.perform) first with
  | mk result dryNext =>
      cases hsecond : exec (visits.forM real.perform) second with
      | mk result' realNext =>
          rw [hfirst, hsecond] at hvisits
          rw [hsecond] at hwrites
          cases result' with
          | error e =>
              obtain ⟨hresult, habreast⟩ := hvisits hwrites
              cases hresult
              exact ⟨rfl, habreast⟩
          | ok _ =>
              have hlater := (onlyTold_finish hpair.realLeavesDisk realNext).trace_le
              obtain ⟨hresult, habreast⟩ := hvisits fun path hwrote =>
                hwrites path (hlater.subset hwrote)
              cases hresult
              exact hpair.abreast_finish habreast

end Rehearses

end Traversal

section Run

variable {σ τ : Type} {settings : Settings} {dryReporter : Reporter σ}
  {realReporter : Reporter τ} {disk : Disk} (hext : '\'' ∉ settings.extension.toList)
  (hdryFails : dryReporter.NeverFails) (hdryDisk : dryReporter.LeavesDisk)
  (hrealFails : realReporter.NeverFails) (hrealDisk : realReporter.LeavesDisk)

include hext hdryFails hdryDisk hrealFails hrealDisk

/-- From the same disk the two runs keep abreast to the end. -/
theorem abreast_runTree {first : RunState σ} {second : RunState τ}
    (h : Abreast { settings with dryRun := false } disk first second) (hdisk : second.disk = disk)
    (hwrites : ∀ path, .file (.wrote path false) ∉
      (exec (runTree { settings with dryRun := false } realReporter) second).2.trace) :
    let a := exec (runTree { settings with dryRun := true } dryReporter) first
    let b := exec (runTree { settings with dryRun := false } realReporter) second
    a.1.map (fun _ => ()) = b.1.map (fun _ => ()) ∧
      Abreast { settings with dryRun := false } disk a.2 b.2 := by
  intro a b
  cases hignored : Glob.parseAll settings.ignorePatterns with
  | error e =>
      simp only [a, b, exec_runTree_eq, hignored, true_and]
      exact h
  | ok ignored =>
      cases hkind : disk.stat settings.root with
      | error cause =>
          simp only [a, b, exec_runTree_eq, hignored, h.disk_eq, hdisk, hkind, true_and]
          exact h
      | ok kind =>
          let dry : Traversal σ :=
            { settings := { settings with dryRun := true }, ignored, reporter := dryReporter }
          let real : Traversal τ :=
            { settings := { settings with dryRun := false }, ignored, reporter := realReporter }
          have hpair : dry.Rehearses real :=
            ⟨rfl, rfl, rfl, hext, hdryFails, hdryDisk, hrealFails, hrealDisk⟩
          have ha : a = exec (do
              (real.itinerary disk kind).forM dry.perform
              dry.finish) first := by
            rw [← hpair.itinerary_eq, ← h.disk_eq]
            exact exec_runTree hdryDisk hignored (h.disk_eq ▸ hkind)
          have hb : b = exec (do
              (real.itinerary disk kind).forM real.perform
              real.finish) second := by
            rw [← hdisk]
            exact exec_runTree hrealDisk hignored (hdisk ▸ hkind)
          rw [ha, hb]
          apply hpair.abreast_visits_finish h
          rw [← hb]
          exact hwrites

end Run

/-- A dry run tells what the run would do.  From the same disk, with reporters that refuse
nothing and leave the disk alone, an extension without a quote and no write given up: the dry
run changes nothing; both runs end alike, take up the same files and tell of the same
failures; and the files that are fixed are those that the dry run tells of, without the ones
that are the same file as an earlier one, so all of them if no two lead to one file. -/
theorem dryRun_completeTree {σ τ : Type} (settings : Settings) (dryReporter : Reporter σ)
    (dryMemory : σ) (realReporter : Reporter τ) (realMemory : τ) (disk : Disk)
    (hext : '\'' ∉ settings.extension.toList)
    (hdryFails : dryReporter.NeverFails) (hdryDisk : dryReporter.LeavesDisk)
    (hrealFails : realReporter.NeverFails) (hrealDisk : realReporter.LeavesDisk)
    (hwrites : ∀ path, .file (.wrote path false) ∉
      (completeTree { settings with dryRun := false } realReporter realMemory disk).final.trace) :
    let dry := completeTree { settings with dryRun := true } dryReporter dryMemory disk
    let real := completeTree { settings with dryRun := false } realReporter realMemory disk
    dry.final.disk = disk ∧
      dry.result.map (fun _ => ()) = real.result.map (fun _ => ()) ∧
      real.final.scanned = dry.final.scanned ∧
      real.final.failed = dry.final.failed ∧
      real.final.fixed = disk.firsts dry.final.fixed ∧
      (real.final.fixed = dry.final.fixed ↔
        dry.final.fixed.Pairwise fun a b => ¬disk.SameFile a.path b.path) := by
  intro dry real
  let first : RunState σ := .initial { settings with dryRun := true } dryMemory disk
  let second : RunState τ := .initial { settings with dryRun := false } realMemory disk
  have hstart : Abreast { settings with dryRun := false } disk first second := by
    refine ⟨rfl, .refl disk, .of_completed ?_, rfl, rfl, rfl⟩
    intro place hplace
    obtain ⟨file, hfile, -⟩ := hplace
    cases hfile
  obtain ⟨hresult, habreast⟩ :=
    abreast_runTree hext hdryFails hdryDisk hrealFails hrealDisk hstart rfl hwrites
  refine ⟨habreast.disk_eq, hresult, habreast.scanned, habreast.failed, habreast.fixed, ?_⟩
  rw [← disk.firsts_eq_self_iff]
  exact Eq.congr_left habreast.fixed

/-- The sample has a link `r/b.ts` to the file `r/a/z.ts`.  A dry run tells of both. -/
theorem dryRun_completeTree_sample :
    let fixes (paths : List String) : List Fix :=
      paths.map fun path => { path := Path.ofString path, imports := 1 }
    let dry := completeTree { sampleSettings with dryRun := true } .silent () sampleDisk
    let real := completeTree { sampleSettings with dryRun := false } .silent () sampleDisk
    dry.final.disk = sampleDisk ∧
      dry.final.fixed = fixes ["r/a/z.ts", "r/a.ts", "r/b.ts"] ∧
      real.final.fixed = fixes ["r/a/z.ts", "r/a.ts"] ∧
      real.final.failed = dry.final.failed := by
  intro fixes dry real
  have hignored : Glob.parseAll sampleSettings.ignorePatterns = .ok [[.char 'v']] :=
    eq_ok_of_toOption (by decide +kernel)
  have hkind : sampleDisk.stat sampleSettings.root = .ok .dir := rfl
  obtain ⟨summary, hresult⟩ := exists_completeTree_ok () Reporter.silent_leavesDisk
    Reporter.silent_neverFails rfl hignored hkind
  have hwrites := wrote_notMem_completeTree Reporter.silent_leavesDisk rfl hresult
  obtain ⟨hdisk, -, -, hfailed, hfixed, -⟩ :=
    dryRun_completeTree sampleSettings .silent () .silent () sampleDisk (by decide +kernel)
      Reporter.silent_neverFails Reporter.silent_leavesDisk Reporter.silent_neverFails
      Reporter.silent_leavesDisk hwrites
  have hdry : dry.final.fixed = fixes ["r/a/z.ts", "r/a.ts", "r/b.ts"] := by
    show (completeTree { sampleSettings with dryRun := true } .silent () sampleDisk).final.fixed = _
    rw [completeTree_sample { sampleSettings with dryRun := true } .silent ()
      Reporter.silent_leavesDisk rfl rfl rfl]
    decide +kernel
  refine ⟨hdisk, hdry, ?_, hfailed⟩
  rw [hfixed, hdry]
  decide +kernel

end ExplicitImports
