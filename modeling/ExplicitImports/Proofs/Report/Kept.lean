import ExplicitImports.Proofs.Report.Settle

/-!
# What a run keeps

To show something of a whole run it is enough to show it of one step.  This is so with every
reporter, and however the run ends.

* `keeps_walk` — what every step of a walk keeps, the walk keeps; what a step leaves when it
  ends the run, the walk leaves.
* `exec_runTree_eq` — a run is a walk and a report, unless a pattern cannot be read or there
  is no root.
* `completeTree_of_parseAll_error`, `completeTree_of_stat_error`, `completeTree_walked` — how
  a run ends where a pattern cannot be read, where there is no root, and otherwise.
* `completeTree_eq_visits` — what it does otherwise if its reporter leaves the disk alone.
* `TreeRun.ReportedFrom` — a run that has come to its report.
* `completeTree_cases` — the three ways in which a run may end.
* `completeTree_remembers` — what a reporter keeps in its memory until it is told the summary.
* `completeTree_reports` — a run with a reporter that accepts what it is told comes to its report.
* `completeTree_keeps` — what the work of a step keeps, a run keeps whose reporter leaves the
  disk alone.
-/

namespace ExplicitImports

open RunM

namespace RunM

variable {σ α : Type}

/-- A step has ended: the run goes on from a state with `inside`, or was ended by an error in
one with `outside`. -/
def Ends (inside : RunState σ → Prop) (outside : RunError → RunState σ → Prop) :
    Except RunError Unit × RunState σ → Prop
  | (.ok (), next) => inside next
  | (.error e, next) => outside e next

/-- What holds however a step ends. -/
theorem Ends.of_always {inside : RunState σ → Prop} {ended : Except RunError Unit × RunState σ}
    (h : inside ended.2) : Ends inside (fun _ => inside) ended := by
  obtain ⟨result, next⟩ := ended
  cases result <;> exact h

/-- A step that has not ended the run. -/
theorem Ends.of_ok {inside : RunState σ → Prop} {outside : RunError → RunState σ → Prop}
    {ended : Except RunError Unit × RunState σ} (hok : ended.1 = .ok ()) (h : inside ended.2) :
    Ends inside outside ended := by
  obtain ⟨result, next⟩ := ended
  cases hok
  exact h

/-- From states with `inside` the step ends in one, or else ends the run in a state with
`outside`. -/
def Keeps (inside : RunState σ → Prop) (outside : RunError → RunState σ → Prop)
    (step : RunM σ Unit) : Prop :=
  ∀ state, inside state → Ends inside outside (exec step state)

theorem keeps_forM {inside : RunState σ → Prop} {outside : RunError → RunState σ → Prop}
    {step : α → RunM σ Unit} (h : ∀ item, Keeps inside outside (step item)) (items : List α) :
    Keeps inside outside (items.forM step) := by
  induction items with
  | nil => exact fun _ hstate => hstate
  | cons item items ih =>
      intro state hstate
      have hitem := h item state hstate
      rw [exec_forM_cons]
      cases hexec : exec (step item) state with
      | mk result next =>
          rw [hexec] at hitem
          cases result with
          | error e => exact hitem
          | ok _ => exact ih next hitem

end RunM

/-- What may come of one step of a walk, and the disk that the work of this step leaves. -/
inductive Step (settings : Settings) (disk : Disk) : Outcome → Disk → Prop
  | ignored (path : Path) : Step settings disk (.ignored path) disk
  | unlisted (path : Path) (cause : IoError) : Step settings disk (.unlisted path cause) disk
  | taken (path : Path) :
      Step settings disk ((completeFile settings path disk).outcome path)
        (completeFile settings path disk).disk

/-- Files are fixed for at least one import. -/
theorem Step.imports_pos {settings : Settings} {disk next : Disk} {outcome : Outcome} {file : Fix}
    (h : Step settings disk outcome next) (hfile : outcome = .fixed file) : 0 < file.imports := by
  cases h with
  | ignored path => cases hfile
  | unlisted path cause => cases hfile
  | taken path =>
      have hcase := fileCase_completeFile settings path disk
      generalize completeFile settings path disk = run at hcase hfile
      cases hcase with
      | unread hread => cases hfile
      | unchanged hread hsame => cases hfile
      | unwritten hread himports hpos hdry =>
          cases hfile
          exact hpos
      | refused hread hpos hdry hwrite => cases hfile
      | written hread himports hpos hdry hwrite =>
          cases hfile
          exact hpos

namespace Traversal

variable {σ : Type} {traversal : Traversal σ} {inside : RunState σ → Prop}
  {outside : RunError → RunState σ → Prop}

section Walk

variable (h : ∀ state outcome next, inside state →
  Step traversal.settings state.disk outcome next →
    Ends inside outside
      (exec (traversal.settle outcome) (state.afterWork traversal.settings outcome next)))

include h

theorem keeps_scan (path : Path) : Keeps inside outside (traversal.scan path) := by
  intro state hstate
  rw [exec_scan_eq_settle]
  exact h state _ _ hstate (.taken path)

theorem keeps_ignore (path : Path) :
    Keeps inside outside (record [.log (.ignored path)] : RunM σ Unit) := by
  intro state hstate
  rw [traversal.exec_ignore_eq_settle]
  exact h state _ _ hstate (.ignored path)

theorem keeps_unlisted (path : Path) (cause : IoError) :
    Keeps inside outside (traversal.fail (listingError path cause)) := by
  intro state hstate
  rw [exec_unlisted_eq_settle]
  exact h state _ _ hstate (.unlisted path cause)

theorem keeps_walkDirectory (levels : Nat) (path : Path) :
    Keeps inside outside (traversal.walkDirectory levels path) := by
  induction levels generalizing path with
  | zero => exact keeps_unlisted h path _
  | succ levels ih =>
      intro state hstate
      unfold walkDirectory
      rw [exec_bind, exec_disk]
      dsimp only
      cases state.disk.list path with
      | error cause => exact keeps_unlisted h path cause state hstate
      | ok entries =>
          -- What the disk has listed is fixed from here on, also if the reporter changes it.
          refine keeps_forM ?_ entries state hstate
          rintro ⟨name, kind⟩ state hstate
          dsimp only
          by_cases hpass : traversal.passesBy name = true
          · rw [if_pos hpass]
            exact keeps_ignore h _ state hstate
          · rw [if_neg hpass]
            by_cases hkind : kind = .dir
            · rw [if_pos hkind]
              exact ih _ state hstate
            · rw [if_neg hkind, exec_bind, exec_disk]
              dsimp only
              split
              · exact keeps_scan h _ state hstate
              · exact hstate

/-- What every step of a walk keeps, the walk keeps, and if a step ends the run the walk
leaves what that step leaves. -/
theorem keeps_walk (kind : NodeKind) : Keeps inside outside (traversal.walk kind) := by
  intro state hstate
  unfold walk
  dsimp only
  split
  · exact hstate
  · split
    · exact keeps_walkDirectory h _ _ state hstate
    · split
      · exact keeps_scan h _ state hstate
      · exact hstate
    · exact hstate
    · exact hstate

end Walk

/-- The summary is reported, and is what a run returns unless the reporter refuses it. -/
theorem exec_finish (state : RunState σ) :
    exec traversal.finish state =
      (((traversal.reporter.tell (.done state.summary) state.reporter).1.map
          fun _ => state.summary).mapError .output,
        state.told traversal.reporter (.done state.summary)) := by
  unfold finish
  rw [exec_bind, exec_get]
  dsimp only
  rw [exec_bind, exec_tell]
  cases (traversal.reporter.tell (.done state.summary) state.reporter).1 <;> rfl

end Traversal

/-- A run is a walk and a report, unless a pattern cannot be read or there is no root; then
nothing is done at all. -/
theorem exec_runTree_eq {σ : Type} (settings : Settings) (reporter : Reporter σ)
    (state : RunState σ) :
    exec (runTree settings reporter) state =
      match Glob.parseAll settings.ignorePatterns with
      | .error e => (.error e, state)
      | .ok ignored =>
          match state.disk.stat settings.root with
          | .error cause => (.error (.io settings.root cause), state)
          | .ok kind =>
              let traversal : Traversal σ := { settings, ignored, reporter }
              exec (do traversal.walk kind; traversal.finish) state := by
  unfold runTree
  rw [exec_bind, exec_ofExcept]
  cases Glob.parseAll settings.ignorePatterns with
  | error e => rfl
  | ok ignored =>
      dsimp only
      rw [exec_bind, exec_disk]
      dsimp only
      rw [exec_bind, exec_ofExcept]
      cases state.disk.stat settings.root <;> rfl

/-- The run has come to its report: it has told the reporter of the summary in this state, which
it returns unless the reporter refuses it. -/
structure TreeRun.ReportedFrom {σ : Type} (run : TreeRun σ) (reporter : Reporter σ)
    (state : RunState σ) : Prop where
  final : run.final = state.told reporter (.done state.summary)
  result : run.result = ((reporter.tell (.done state.summary) state.reporter).1.map
    fun _ => state.summary).mapError .output

/-- What such a run returns is the summary that it has told.  A summary that is refused is no
result, though it was told. -/
theorem TreeRun.ReportedFrom.eq_of_ok {σ : Type} {run : TreeRun σ} {reporter : Reporter σ}
    {state : RunState σ} {summary : Summary} (h : run.ReportedFrom reporter state)
    (hok : run.result = .ok summary) : state.summary = summary := by
  rw [h.result] at hok
  cases htold : (reporter.tell (.done state.summary) state.reporter).1 with
  | error cause =>
      rw [htold] at hok
      cases hok
  | ok _ =>
      rw [htold] at hok
      cases hok
      rfl

section Ends

variable {σ : Type} {settings : Settings} {reporter : Reporter σ} {memory : σ} {disk : Disk}

theorem completeTree_eq (settings : Settings) (reporter : Reporter σ) (memory : σ) (disk : Disk) :
    completeTree settings reporter memory disk =
      { result := (exec (runTree settings reporter) (.initial settings memory disk)).1
        final := (exec (runTree settings reporter) (.initial settings memory disk)).2 } := rfl

/-- Where a pattern cannot be read, nothing is done. -/
theorem completeTree_of_parseAll_error {e : RunError}
    (h : Glob.parseAll settings.ignorePatterns = .error e) :
    completeTree settings reporter memory disk =
      { result := .error e, final := .initial settings memory disk } := by
  rw [completeTree_eq, exec_runTree_eq, h]

variable {ignored : List Glob.Pattern}
  (hignored : Glob.parseAll settings.ignorePatterns = .ok ignored)

include hignored

/-- Where there is no root, nothing is done. -/
theorem completeTree_of_stat_error {cause : IoError}
    (h : disk.stat settings.root = .error cause) :
    completeTree settings reporter memory disk =
      { result := .error (.io settings.root cause)
        final := .initial settings memory disk } := by
  have hroot : (RunState.initial settings memory disk).disk.stat settings.root = .error cause := h
  rw [completeTree_eq, exec_runTree_eq, hignored]
  simp only [hroot]

/-- With a reporter that leaves the disk alone, what a run does after that is its itinerary and
the report. -/
theorem completeTree_eq_visits (hdisk : reporter.LeavesDisk) {kind : NodeKind}
    (hkind : disk.stat settings.root = .ok kind) :
    let traversal : Traversal σ := { settings, ignored, reporter }
    let walked := exec (do
      (traversal.itinerary disk kind).forM traversal.perform
      traversal.finish) (.initial settings memory disk)
    completeTree settings reporter memory disk = { result := walked.1, final := walked.2 } := by
  intro traversal walked
  have hrun : exec (runTree settings reporter) (.initial settings memory disk) = walked :=
    exec_runTree hdisk hignored hkind
  rw [completeTree_eq, hrun]

/-- How a run ends that comes to its walk: by an error of the walk, or with the report of the
summary.  What every step keeps holds when the summary is reported, and what a step leaves
when it ends the run is left by the run. -/
theorem completeTree_walked {kind : NodeKind} {inside : RunState σ → Prop}
    {outside : RunError → RunState σ → Prop} (hkind : disk.stat settings.root = .ok kind)
    (hsteps : ∀ (traversal : Traversal σ) state outcome next,
      traversal.settings = settings → traversal.reporter = reporter → inside state →
        Step settings state.disk outcome next →
          Ends inside outside
            (exec (traversal.settle outcome) (state.afterWork settings outcome next)))
    (hstart : inside (.initial settings memory disk)) :
    let run := completeTree settings reporter memory disk
    (∃ e, run.result = .error e ∧ outside e run.final) ∨
      ∃ state, inside state ∧ run.ReportedFrom reporter state := by
  intro run
  let start : RunState σ := .initial settings memory disk
  have hroot : start.disk.stat settings.root = .ok kind := hkind
  have hrun : (run.result, run.final) = exec (runTree settings reporter) start := rfl
  rw [exec_runTree_eq, hignored] at hrun
  simp only [hroot] at hrun
  let traversal : Traversal σ := { settings, ignored, reporter }
  have hwalk : Ends inside outside (exec (traversal.walk kind) start) :=
    traversal.keeps_walk (fun state outcome next => hsteps traversal state outcome next rfl rfl)
      kind start hstart
  rw [exec_bind] at hrun
  -- Either a step of the walk has ended the run, or the report starts where it ends.
  cases hexec : exec (traversal.walk kind) start with
  | mk result state =>
      rw [hexec] at hwalk hrun
      cases result with
      | error e =>
          obtain ⟨hresult, hfinal⟩ := Prod.mk.inj hrun
          exact .inl ⟨e, hresult, hfinal ▸ hwalk⟩
      | ok _ =>
          dsimp only at hrun
          rw [Traversal.exec_finish] at hrun
          obtain ⟨hresult, hfinal⟩ := Prod.mk.inj hrun
          exact .inr ⟨state, hwalk, hfinal, hresult⟩

end Ends

/-- How a run may end: before its walk, by an error of its walk, or with the report of the
summary. -/
theorem completeTree_cases {σ : Type} {settings : Settings} {reporter : Reporter σ} {memory : σ}
    {disk : Disk} {inside : RunState σ → Prop} {outside : RunError → RunState σ → Prop}
    (hsteps : ∀ (traversal : Traversal σ) state outcome next,
      traversal.settings = settings → traversal.reporter = reporter → inside state →
        Step settings state.disk outcome next →
          Ends inside outside
            (exec (traversal.settle outcome) (state.afterWork settings outcome next)))
    (hstart : inside (.initial settings memory disk)) :
    let run := completeTree settings reporter memory disk
    (run.final = .initial settings memory disk ∧ ∃ e, run.result = .error e) ∨
      (∃ e, run.result = .error e ∧ outside e run.final) ∨
      ∃ state, inside state ∧ run.ReportedFrom reporter state := by
  intro run
  cases hignored : Glob.parseAll settings.ignorePatterns with
  | error e =>
      simp only [run, completeTree_of_parseAll_error hignored]
      exact .inl ⟨trivial, e, rfl⟩
  | ok ignored =>
      cases hkind : disk.stat settings.root with
      | error cause =>
          simp only [run, completeTree_of_stat_error hignored hkind]
          exact .inl ⟨trivial, _, rfl⟩
      | ok kind => exact .inr (completeTree_walked hignored hkind hsteps hstart)

/-- What a reporter keeps in its memory when it is told of fixes and failures is there when the
summary is reported, or at the end if it comes to no report. -/
theorem completeTree_remembers {σ : Type} {reporter : Reporter σ} {memory : σ}
    (keeps : σ → Prop)
    (h : ∀ callback memory, (∀ summary, callback ≠ .done summary) → keeps memory →
      keeps (reporter.tell callback memory).2) (hstart : keeps memory) (settings : Settings)
    (disk : Disk) :
    let run := completeTree settings reporter memory disk
    (keeps run.final.reporter ∧ ∃ e, run.result = .error e) ∨
      ∃ state : RunState σ, keeps state.reporter ∧ run.ReportedFrom reporter state := by
  intro run
  let inside (state : RunState σ) : Prop := keeps state.reporter
  have hsteps (traversal : Traversal σ) (state : RunState σ) (outcome : Outcome) (next : Disk)
      (_ : traversal.settings = settings) (hreporter : traversal.reporter = reporter)
      (hstate : inside state) (_ : Step settings state.disk outcome next) :
      Ends inside (fun _ => inside)
        (exec (traversal.settle outcome) (state.afterWork settings outcome next)) := by
    subst hreporter
    exact .of_always
      (traversal.remembers_settle outcome (state.afterWork settings outcome next) h hstate)
  rcases completeTree_cases hsteps hstart with
    ⟨hfinal, herror⟩ | ⟨e, herror, hfinal⟩ | hreported
  · exact .inl ⟨hfinal ▸ hstart, herror⟩
  · exact .inl ⟨hfinal, e, herror⟩
  · exact .inr hreported

/-- Where failures are passed over and the reporter accepts what it is told of fixes and failures,
a run that comes to its walk comes to its report. -/
theorem completeTree_reports {σ : Type} {settings : Settings} {reporter : Reporter σ} {memory : σ}
    {disk : Disk} {ignored : List Glob.Pattern} {kind : NodeKind} (keeps : σ → Prop)
    (h : ∀ callback memory, (∀ summary, callback ≠ .done summary) → keeps memory →
      (reporter.tell callback memory).1 = .ok () ∧ keeps (reporter.tell callback memory).2)
    (hstart : keeps memory) (hpolicy : settings.onFailure = .goOn)
    (hignored : Glob.parseAll settings.ignorePatterns = .ok ignored)
    (hkind : disk.stat settings.root = .ok kind) :
    let run := completeTree settings reporter memory disk
    ∃ state : RunState σ, keeps state.reporter ∧ run.ReportedFrom reporter state := by
  intro run
  let inside (state : RunState σ) : Prop := keeps state.reporter
  have hsteps (traversal : Traversal σ) (state : RunState σ) (outcome : Outcome) (next : Disk)
      (hsettings : traversal.settings = settings) (hreporter : traversal.reporter = reporter)
      (hstate : inside state) (_ : Step settings state.disk outcome next) :
      Ends inside (fun _ _ => False)
        (exec (traversal.settle outcome) (state.afterWork settings outcome next)) := by
    subst hsettings hreporter
    let worked := state.afterWork traversal.settings outcome next
    have hok := traversal.exec_settle_of_accepts outcome worked hpolicy fun callback hcallback =>
      (h callback state.reporter hcallback hstate).1
    have hlast := traversal.remembers_settle outcome worked
      (fun callback memory hcallback hmemory => (h callback memory hcallback hmemory).2) hstate
    exact .of_ok hok hlast
  rcases completeTree_walked hignored hkind hsteps hstart with ⟨-, -, hnever⟩ | hreported
  · exact hnever.elim
  · exact hreported

end ExplicitImports
