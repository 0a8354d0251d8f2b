import ExplicitImports.Cli.Command
import ExplicitImports.Proofs.Cli.KeepGoing
import ExplicitImports.Proofs.Report.Closing
import ExplicitImports.Proofs.Report.FirstFailure
import ExplicitImports.Proofs.Walk.Due

/-!
# How the command exits

The command exits with 0 if all went well and with 1 if anything did not, and whether it is to go
on after failures has no part in it.

* `Visit.GoesWell`, `Visit.AllGoWell` — a visit to a file reads it and writes it if there is
  something to complete; visits come one after another, each to the disk that is left by then.
* `exec_visits_of_allGoWell`, `failed_of_not_allGoWell` — if all visits go well only the reporter
  can end the run, and no failure is told; otherwise the run is ended or a failure is told.
* `exitCode_eq_zero_iff` — when the command exits with 0.
* `exitCode_goOn_eq_stop` — it exits alike whether failures stop the run or not.
* `exitStatus_completeTree` — both for what is asked for on a command line, and for every command
  line that starts a run.
-/

namespace ExplicitImports

open RunM

namespace Visit

/-- The visit goes well on this disk: its file can be read and, if there is something to complete
and the run is not dry, be written.  A directory that is refused does not go well. -/
def GoesWell (settings : Settings) (disk : Disk) : Visit → Prop
  | scan names =>
      let path := settings.root.below names
      ∃ content, disk.readText path = .ok content ∧
        ((completeImports settings content).changesText = true → settings.dryRun = false →
          (disk.write path (Utf8.encode (completeImports settings content).text)).1 = .ok ())
  | passBy _ => True
  | refuse .. => False

/-- All visits go well, each on the disk that is left by the ones before it. -/
def AllGoWell (settings : Settings) : Disk → List Visit → Prop
  | _, [] => True
  | disk, visit :: visits =>
      visit.GoesWell settings disk ∧ AllGoWell settings (visit.diskAfter settings disk) visits

/-- The work on a file comes to an error if it has one as its result. -/
theorem error?_fileOutcome (path : Path) (run : FileRun) :
    (run.outcome path).error? = none ↔ ∃ effect, run.result = .ok effect := by
  unfold FileRun.outcome
  cases run.result with
  | error error => simp [Outcome.error?]
  | ok effect => cases effect <;> simp [Outcome.error?]

/-- A visit that goes well is one that does not come to an error. -/
theorem goesWell_iff (settings : Settings) (disk : Disk) (visit : Visit) :
    visit.GoesWell settings disk ↔ (visit.outcome settings disk).error? = none := by
  cases visit with
  | passBy names => exact iff_of_true trivial rfl
  | refuse names cause => exact iff_of_false (fun h => h) (fun h => nomatch h)
  | scan names =>
      have hcase := fileCase_completeFile settings (settings.root.below names) disk
      rw [outcome, error?_fileOutcome]
      unfold GoesWell
      generalize completeFile settings (settings.root.below names) disk = run at hcase ⊢
      cases hcase with
      | unread hread => simp [hread]
      | unchanged hread hsame => simp [hread, hsame]
      | unwritten hread himports hpos hdry => simp [hread, hdry]
      | refused hread hpos hdry hwrite =>
          simp [hread, hdry, hwrite, Completion.changesText_iff.2 hpos]
      | written hread himports hpos hdry hwrite => simp [hread, hwrite]

end Visit

/-- What was told of failures stays told. -/
theorem failed_prefix_of_trace {σ : Type} {state next : RunState σ}
    (h : state.trace <+: next.trace) : state.failed <+: next.failed := by
  unfold RunState.failed
  rw [RunState.callbacks_eq, RunState.callbacks_eq]
  exact (h.filterMap _).filterMap _

namespace Traversal

section Visits

variable {σ : Type} {traversal : Traversal σ} (hdisk : traversal.reporter.LeavesDisk)

include hdisk

/-- A visit leaves the disk that its work leaves. -/
theorem disk_exec_perform (visit : Visit) (state : RunState σ) :
    (exec (traversal.perform visit) state).2.disk =
      visit.diskAfter traversal.settings state.disk := by
  rw [visit.exec_perform_eq_settle]
  exact (traversal.onlyTold_settle _ _ hdisk).disk

omit hdisk in
/-- A visit that goes well tells of no failure, and only the reporter can end the run in it. -/
theorem exec_perform_of_goesWell {visit : Visit} {state : RunState σ}
    (h : visit.GoesWell traversal.settings state.disk) :
    (exec (traversal.perform visit) state).2.failed = state.failed ∧
      ∀ e, (exec (traversal.perform visit) state).1 = .error e → ∃ cause, e = .output cause := by
  have hnone := (visit.goesWell_iff _ _).1 h
  rw [visit.exec_perform_eq_settle]
  refine ⟨?_, ?_⟩
  · have hfailure : (visit.outcome traversal.settings state.disk).failure?
        traversal.settings.onFailure = none := by
      cases hpolicy : traversal.settings.onFailure with
      | stop => rfl
      | goOn => exact congrArg (Option.map RunError.failure) hnone
    rw [traversal.failed_exec_settle, hfailure]
    exact List.append_nil _
  · intro e he
    cases traversal.settleCase (visit.outcome traversal.settings state.disk) _ with
    | silent hexec =>
        rw [hexec] at he
        cases he
    | stopped hpolicy herror hexec =>
        rw [hnone] at herror
        cases herror
    | told hcallback hnoted hexec =>
        rw [hexec, traversal.exec_tell_summarize] at he
        split at he
        · cases he
        · cases he
          exact ⟨_, rfl⟩

/-- So it is with visits that all go well. -/
theorem exec_visits_of_allGoWell {visits : List Visit} {state : RunState σ}
    (h : Visit.AllGoWell traversal.settings state.disk visits) :
    (exec (visits.forM traversal.perform) state).2.failed = state.failed ∧
      ∀ e, (exec (visits.forM traversal.perform) state).1 = .error e →
        ∃ cause, e = .output cause := by
  induction visits generalizing state with
  | nil => exact ⟨rfl, fun e he => nomatch he⟩
  | cons visit visits ih =>
      obtain ⟨hfirst, hrest⟩ := h
      obtain ⟨hfailed, herror⟩ := exec_perform_of_goesWell hfirst
      have hafter := disk_exec_perform hdisk visit state
      rw [exec_forM_cons]
      cases hexec : exec (traversal.perform visit) state with
      | mk result next =>
          rw [hexec] at hfailed herror hafter
          cases result with
          | error e => exact ⟨hfailed, herror⟩
          | ok _ =>
              obtain ⟨hlater, herrors⟩ := ih (hafter ▸ hrest)
              exact ⟨hlater.trans hfailed, herrors⟩

omit hdisk in
/-- A visit that does not go well ends the run or tells of a failure. -/
theorem failed_exec_perform_of_not_goesWell {visit : Visit} {state : RunState σ}
    (h : ¬visit.GoesWell traversal.settings state.disk)
    (hok : (exec (traversal.perform visit) state).1 = .ok ()) :
    (exec (traversal.perform visit) state).2.failed ≠ [] := by
  rw [visit.goesWell_iff] at h
  rw [visit.exec_perform_eq_settle] at hok ⊢
  obtain ⟨error, herror⟩ := Option.ne_none_iff_exists'.1 h
  have hpolicy : traversal.settings.onFailure = .goOn := by
    cases hpolicy : traversal.settings.onFailure with
    | stop => exact absurd ((traversal.summary_exec_settle hok).2 hpolicy) h
    | goOn => rfl
  have hfailure : (visit.outcome traversal.settings state.disk).failure?
      traversal.settings.onFailure = some error.failure := by
    rw [hpolicy]
    exact congrArg (Option.map RunError.failure) herror
  rw [traversal.failed_exec_settle, hfailure]
  exact List.append_ne_nil_of_right_ne_nil _ (List.cons_ne_nil _ _)

/-- If some visit does not go well, the run is ended or a failure is told. -/
theorem failed_of_not_allGoWell {visits : List Visit} {state : RunState σ}
    (h : ¬Visit.AllGoWell traversal.settings state.disk visits)
    (hok : (exec (visits.forM traversal.perform) state).1 = .ok ()) :
    (exec (visits.forM traversal.perform) state).2.failed ≠ [] := by
  induction visits generalizing state with
  | nil => exact absurd trivial h
  | cons visit visits ih =>
      have hafter := disk_exec_perform hdisk visit state
      have hfails (hbad : ¬visit.GoesWell traversal.settings state.disk) :=
        failed_exec_perform_of_not_goesWell hbad
      rw [exec_forM_cons] at hok ⊢
      cases hexec : exec (traversal.perform visit) state with
      | mk result next =>
          rw [hexec] at hok hafter hfails
          cases result with
          | error e => cases hok
          | ok _ =>
              by_cases hfirst : visit.GoesWell traversal.settings state.disk
              · exact ih (fun hrest => h ⟨hfirst, hafter ▸ hrest⟩) hok
              · -- The failure that was told here is still there when the visits are over.
                have hlater := failed_prefix_of_trace (traversal.trace_le_visits hdisk visits next)
                intro hnone
                rw [hnone, List.prefix_nil] at hlater
                exact hfails hfirst rfl hlater

/-- A run that carries out visits that all go well is ended by its reporter alone. -/
theorem exists_output_of_allGoWell {visits : List Visit} {state : RunState σ} {e : RunError}
    (h : Visit.AllGoWell traversal.settings state.disk visits)
    (he : (exec (do visits.forM traversal.perform; traversal.finish) state).1 = .error e) :
    ∃ cause, e = .output cause := by
  obtain ⟨-, herror⟩ := exec_visits_of_allGoWell hdisk h
  rw [exec_bind] at he
  cases hexec : exec (visits.forM traversal.perform) state with
  | mk result next =>
      rw [hexec] at he herror
      cases result with
      | error d =>
          cases he
          exact herror e rfl
      | ok _ =>
          dsimp only at he
          rw [traversal.exec_finish] at he
          cases hanswer : (traversal.reporter.tell (.done next.summary) next.reporter).1 with
          | error cause =>
              rw [hanswer] at he
              cases he
              exact ⟨cause, rfl⟩
          | ok _ =>
              rw [hanswer] at he
              cases he

end Visits

end Traversal

open Cli.Arguments (exitCode)

/-- The command exits with 0 or with 1. -/
theorem exitCode_eq_zero_or_one (result : Except RunError Summary) :
    exitCode result = 0 ∨ exitCode result = 1 := by
  cases result with
  | error e => exact .inr rfl
  | ok summary => cases hany : summary.anyFailed <;> simp [exitCode, hany]

section Run

variable {σ : Type} (settings : Settings) (reporter : Reporter σ) (memory : σ) (disk : Disk)

/-- The command exits with 0 exactly if the run returns a summary and told of no failure. -/
theorem exitCode_eq_zero_iff_failed :
    let run := completeTree settings reporter memory disk
    exitCode run.result = 0 ↔ (∃ summary, run.result = .ok summary) ∧ run.final.failed = [] := by
  intro run
  cases hresult : run.result with
  | error e => simp [exitCode]
  | ok summary =>
      have hfailures : summary.failures = run.final.failed := failures_eq_failed hresult
      rw [← hfailures]
      cases hnone : summary.failures <;> simp [exitCode, Summary.anyFailed, hnone]

variable (hdisk : reporter.LeavesDisk)

include hdisk

/-- A run that comes to its walk returns a summary and tells of no failure exactly if all visits
go well and the reporter refuses nothing. -/
theorem unfailed_iff_allGoWell {ignored : List Glob.Pattern} {kind : NodeKind}
    (hignored : Glob.parseAll settings.ignorePatterns = .ok ignored)
    (hkind : disk.stat settings.root = .ok kind) :
    let run := completeTree settings reporter memory disk
    (∃ summary, run.result = .ok summary) ∧ run.final.failed = [] ↔
      Visit.AllGoWell settings disk
          (Traversal.itinerary { settings, ignored, reporter } disk kind) ∧
        ∀ answer ∈ reporter.answers memory run.final.callbacks, answer = .ok () := by
  intro run
  let traversal : Traversal σ := { settings, ignored, reporter }
  let visits := traversal.itinerary disk kind
  let start : RunState σ := .initial settings memory disk
  have hrun : run = _ := completeTree_eq_visits hignored hdisk hkind
  have hending : Ending settings reporter memory run :=
    ending_of_walked settings reporter memory disk hignored hkind
  have hfailed : run.final.failed = (exec (visits.forM traversal.perform) start).2.failed := by
    rw [hrun]
    exact traversal.failed_exec_finish visits start
  constructor
  · rintro ⟨⟨summary, hresult⟩, hnone⟩
    refine ⟨?_, ?_⟩
    · by_contra hbad
      have hok : (exec (do visits.forM traversal.perform; traversal.finish) start).1 =
          .ok summary := by
        rw [hrun] at hresult
        exact hresult
      obtain ⟨_, next, hvisits, -⟩ := exists_of_exec_bind hok
      have hstart : ¬Visit.AllGoWell traversal.settings start.disk visits := hbad
      have htold := traversal.failed_of_not_allGoWell hdisk hstart (by rw [hvisits])
      exact htold (hfailed ▸ hnone)
    · cases hending with
      | reported _ hanswers => exact hanswers
      | refused hrefused _ _ =>
          rw [hresult] at hrefused
          cases hrefused
      | stopped _ hstopped _ _ =>
          rw [hresult] at hstopped
          cases hstopped
  · rintro ⟨hwell, hanswers⟩
    have hstart : Visit.AllGoWell traversal.settings start.disk visits := hwell
    refine ⟨?_, ?_⟩
    · cases hresult : run.result with
      | ok summary => exact ⟨summary, rfl⟩
      | error e =>
          -- Only the reporter could have ended the run, and it has refused nothing.
          rw [hrun] at hresult
          obtain ⟨cause, rfl⟩ := traversal.exists_output_of_allGoWell hdisk hstart hresult
          rw [← hrun] at hresult
          exact nomatch hanswers _ ((hending.output_iff cause).1 hresult)
    · rw [hfailed]
      exact (traversal.exec_visits_of_allGoWell hdisk hstart).1

/-- The command exits with 0 exactly if the patterns can be read, the root is there, every visit
that is due goes well, in the order of their names, and the reporter has refused nothing of what
it was told. -/
theorem exitCode_eq_zero_iff :
    let run := completeTree settings reporter memory disk
    exitCode run.result = 0 ↔
      (∀ text ∈ settings.ignorePatterns, ∃ pattern, Glob.Pattern.parse text = .ok pattern) ∧
      (∃ kind, disk.stat settings.root = .ok kind) ∧
      (∃ visits : List Visit, (visits.Pairwise fun a b => Precedes a.names b.names) ∧
        (∀ visit, visit ∈ visits ↔ visit.Due settings disk) ∧
        Visit.AllGoWell settings disk visits) ∧
      ∀ answer ∈ reporter.answers memory run.final.callbacks, answer = .ok () := by
  intro run
  refine (exitCode_eq_zero_iff_failed settings reporter memory disk).trans ?_
  cases hignored : Glob.parseAll settings.ignorePatterns with
  | error e =>
      rw [completeTree_of_parseAll_error hignored]
      refine iff_of_false (by simp) ?_
      rintro ⟨hpatterns, -⟩
      obtain ⟨ignored, hread⟩ := exists_parseAll hpatterns
      exact nomatch hignored.symm.trans hread
  | ok ignored =>
      cases hkind : disk.stat settings.root with
      | error cause => simp [completeTree_of_stat_error hignored hkind]
      | ok kind =>
          let traversal : Traversal σ := { settings, ignored, reporter }
          have hwalked := unfailed_iff_allGoWell settings reporter memory disk hdisk hignored hkind
          have hitinerary (visits : List Visit) :
              visits = traversal.itinerary disk kind ↔
                (visits.Pairwise fun a b => Precedes a.names b.names) ∧
                  ∀ visit, visit ∈ visits ↔ visit.Due settings disk :=
            traversal.eq_itinerary_iff hignored hkind
          refine hwalked.trans ?_
          constructor
          · rintro ⟨hwell, hanswers⟩
            obtain ⟨hordered, hdue⟩ := (hitinerary _).1 rfl
            exact ⟨exists_parse_of_parseAll hignored, ⟨kind, rfl⟩, ⟨_, hordered, hdue, hwell⟩,
              hanswers⟩
          · rintro ⟨-, -, ⟨visits, hordered, hdue, hwell⟩, hanswers⟩
            rw [(hitinerary visits).2 ⟨hordered, hdue⟩] at hwell
            exact ⟨hwell, hanswers⟩

/-- The command exits alike whether failures stop the run or not. -/
theorem exitCode_goOn_eq_stop :
    exitCode (completeTree { settings with onFailure := .goOn } reporter memory disk).result =
      exitCode (completeTree { settings with onFailure := .stop } reporter memory disk).result := by
  rcases failed_eq_nil_or_cutAt settings reporter memory disk hdisk with
    ⟨hsame, -⟩ | ⟨cut, error, hcut⟩
  · exact congrArg (fun ended => exitCode ended.1) hsame.symm
  · have hstop : (completeTree { settings with onFailure := .stop } reporter memory disk).result =
        .error error := congrArg Prod.fst hcut.exec_stop
    let going := completeTree { settings with onFailure := .goOn } reporter memory disk
    obtain ⟨⟨others, hfailed⟩, -, -⟩ := hcut.told.told_of_failure rfl (hcut.notice_le_goOn hdisk)
    have hnonzero : exitCode going.result ≠ 0 := by
      intro hzero
      have hnone := ((exitCode_eq_zero_iff_failed _ _ _ _).1 hzero).2
      exact List.cons_ne_nil _ _ (hfailed.symm.trans hnone)
    rw [hstop]
    exact (exitCode_eq_zero_or_one going.result).resolve_left hnonzero

end Run

namespace Cli.Arguments

/-- What is asked for on a command line, with the defaults in the place of what is not given. -/
theorem settings_eq (arguments : Arguments) :
    arguments.settings =
      { root := arguments.root.getD (Path.ofString "api")
        suffixes := if arguments.suffixes = [] then [".ts"] else arguments.suffixes
        extension := arguments.extension.getD ".js"
        excludedPrefixes :=
          if arguments.excludedPrefixes = [] then ["./node_modules"] else arguments.excludedPrefixes
        ignorePatterns := arguments.ignorePatterns
        onFailure := if arguments.keepGoing then .goOn else .stop
        dryRun := arguments.dryRun } := rfl

theorem reporter_leavesDisk (arguments : Arguments) (environment : Environment) :
    (arguments.reporter environment).LeavesDisk := by
  unfold reporter
  split
  · exact Document.reporter_leavesDisk
  · exact (arguments.console environment).reporter_leavesDisk

end Cli.Arguments

/-- A command line that starts a run does what the run does. -/
theorem Cli.run_of_parse {line : List Bytes} {arguments : Cli.Arguments}
    (h : Cli.Arguments.parse line = .ok arguments) (environment : Cli.Environment) (time : String)
    (disk : Disk) : Cli.run line environment time disk = arguments.run environment time disk := by
  unfold Cli.run
  rw [h]

/-- The exit status of a run that was asked for on the command line, with any reporter that leaves
the disk alone, whatever it refuses.  It is 0 exactly if the ignore patterns of the arguments can
be read, their root, which is `api` if none is given, is there, every directory of the walk can be
listed, every file of it be read and, where something is to complete and no dry run is asked for,
be written, and the reporter has refused nothing of what it was told; otherwise it is 1.  It is the
same whether the run is to keep going after failures or stops at the first one.  A command line
that is read as these arguments starts this run with the reporter they ask for and exits as the run
does, and with `--keep-going` before it, it exits alike. -/
theorem exitStatus_completeTree {σ : Type} (arguments : Cli.Arguments) (reporter : Reporter σ)
    (memory : σ) (disk : Disk) (hdisk : reporter.LeavesDisk) :
    let asked (keepGoing : Bool) : Settings :=
      { root := arguments.root.getD (Path.ofString "api")
        suffixes := if arguments.suffixes = [] then [".ts"] else arguments.suffixes
        extension := arguments.extension.getD ".js"
        excludedPrefixes :=
          if arguments.excludedPrefixes = [] then ["./node_modules"] else arguments.excludedPrefixes
        ignorePatterns := arguments.ignorePatterns
        onFailure := if keepGoing then .goOn else .stop
        dryRun := arguments.dryRun }
    let run (keepGoing : Bool) := completeTree (asked keepGoing) reporter memory disk
    (∀ keepGoing, exitCode (run keepGoing).result = 0 ↔
      (∀ text ∈ arguments.ignorePatterns, ∃ pattern, Glob.Pattern.parse text = .ok pattern) ∧
      (∃ kind, disk.stat (arguments.root.getD (Path.ofString "api")) = .ok kind) ∧
      (∃ visits : List Visit, (visits.Pairwise fun a b => Precedes a.names b.names) ∧
        (∀ visit, visit ∈ visits ↔ visit.Due (asked keepGoing) disk) ∧
        Visit.AllGoWell (asked keepGoing) disk visits) ∧
      ∀ answer ∈ reporter.answers memory (run keepGoing).final.callbacks, answer = .ok ()) ∧
    (∀ keepGoing, exitCode (run keepGoing).result = 0 ∨ exitCode (run keepGoing).result = 1) ∧
    exitCode (run true).result = exitCode (run false).result ∧
    ∀ line environment time, Cli.Arguments.parse line = .ok arguments →
      (let outcome := Cli.run line environment time disk
        let console : Console :=
          { color := arguments.wantsColor environment && environment.takesEscapes
            quiet := arguments.quiet
            dryRun := arguments.dryRun }
        let started := completeTree (asked arguments.keepGoing)
          (if arguments.json then Document.reporter else console.reporter) {} disk
        outcome.code = exitCode started.result ∧ outcome.disk = started.final.disk ∧
          outcome.stdout = started.final.reporter.out.received) ∧
      ∀ later, arguments.keepGoing = false →
        (Cli.run (Utf8.ofString "--keep-going" :: line) environment later disk).code =
          (Cli.run line environment time disk).code := by
  intro asked run
  have hpolicies {τ : Type} (other : Reporter τ) (start : τ) (hother : other.LeavesDisk) :
      exitCode (completeTree (asked true) other start disk).result =
        exitCode (completeTree (asked false) other start disk).result :=
    exitCode_goOn_eq_stop (asked false) other start disk hother
  refine ⟨?_, fun keepGoing => exitCode_eq_zero_or_one _, hpolicies reporter memory hdisk, ?_⟩
  · intro keepGoing
    exact exitCode_eq_zero_iff (asked keepGoing) reporter memory disk hdisk
  · intro line environment time hline
    have hasked : arguments.settings = asked arguments.keepGoing := arguments.settings_eq
    rw [Cli.run_of_parse hline]
    refine ⟨?_, ?_⟩
    · rw [← hasked]
      exact ⟨rfl, rfl, rfl⟩
    · intro later hnone
      rw [Cli.run_of_parse (Cli.Arguments.parse_keepGoing hline hnone)]
      rw [hnone] at hasked
      have hsame := hpolicies (arguments.reporter environment) {}
        (arguments.reporter_leavesDisk environment)
      rw [← hasked] at hsame
      exact hsame

section Locked

/-- A directory with a directory in it that cannot be listed, a file that cannot be read, and after
them a file to complete. -/
def lockedDisk : Disk where
  nodes :=
    [("api", .dir), ("api/locked", .dir), ("api/m.ts", .file []),
      ("api/z.ts", .file (Utf8.ofString "import a from './a';\n"))].map
      fun (path, node) => ((Path.ofString path).names, node)
  unreadable :=
    [((Path.ofString "api/locked").names, .os .permissionDenied),
      ((Path.ofString "api/m.ts").names, .os .permissionDenied)]

/-- What is in it. -/
def lockedEntries : List (Name × NodeKind) :=
  sampleEntries [("locked", .dir), ("m.ts", .file), ("z.ts", .file)]

/-- No walk of it comes further than to its entries. -/
theorem itinerary_locked {σ : Type} {traversal : Traversal σ}
    (hroot : traversal.settings.root = Path.ofString "api") :
    traversal.itinerary lockedDisk .dir = lockedEntries.flatMap fun (name, kind) =>
      traversal.entryVisits lockedDisk (fun names => [.refuse names (.os .permissionDenied)]) []
        name kind := by
  have hlist : lockedDisk.list ((Path.ofString "api").below []) = .ok lockedEntries := by
    apply Disk.list_eq_of_nodes (Path.ofString "api").names <;> decide +kernel
  have hclosed : ∀ entry ∈ lockedEntries, entry.2 = .dir →
      lockedDisk.list ((Path.ofString "api").below [entry.1]) = .error (.os .permissionDenied) := by
    intro entry hentry hdir
    have hnode : (lockedDisk.resolveNode ((Path.ofString "api").below [entry.1])).toOption =
        some ((Path.ofString "api/locked").names, .dir) := by
      revert entry
      decide +kernel
    unfold Disk.list
    rw [eq_ok_of_toOption hnode]
    rfl
  have hstart : traversal.itinerary lockedDisk .dir =
      traversal.visits lockedDisk (4095 + 1) [] := by
    unfold Traversal.itinerary
    rw [hroot]
    rfl
  rw [hstart, Traversal.visits, hroot, hlist]
  apply List.flatMap_congr
  rintro ⟨name, kind⟩ hentry
  unfold Traversal.entryVisits
  by_cases hdir : kind = .dir
  · have hinside : traversal.visits lockedDisk 4095 [name] =
        [.refuse [name] (.os .permissionDenied)] := by
      rw [Traversal.visits, hroot, hclosed _ hentry hdir]
    simp only [List.nil_append, hinside]
  · simp only [hdir, if_false]

/-- A run over it visits them and reports the summary then. -/
theorem completeTree_locked {σ : Type} (settings : Settings) (reporter : Reporter σ) (memory : σ)
    (hdisk : reporter.LeavesDisk) (hroot : settings.root = Path.ofString "api")
    {ignored : List Glob.Pattern}
    (hignored : (Glob.parseAll settings.ignorePatterns).toOption = some ignored) :
    let traversal : Traversal σ := { settings, ignored, reporter }
    let run := exec (do
      (lockedEntries.flatMap fun (name, kind) =>
        traversal.entryVisits lockedDisk (fun names => [.refuse names (.os .permissionDenied)]) []
          name kind).forM traversal.perform
      traversal.finish) (.initial settings memory lockedDisk)
    completeTree settings reporter memory lockedDisk = { result := run.1, final := run.2 } := by
  intro traversal run
  have hkind : lockedDisk.stat settings.root = .ok .dir := by
    rw [hroot]
    rfl
  have hrun : completeTree settings reporter memory lockedDisk = _ :=
    completeTree_eq_visits (eq_ok_of_toOption hignored) hdisk hkind
  have hvisits : Traversal.itinerary { settings, ignored, reporter } lockedDisk .dir = _ :=
    itinerary_locked hroot
  rw [hrun, hvisits]

/-- The command stops at the directory that cannot be listed and exits with 1.  If it is to keep
going, it completes the file behind, and exits with 1 as well.  Where all that is locked is ignored
it exits with 0, also if it is to keep going; without a pattern that can be read, or a root, it
exits with 1. -/
theorem exitStatus_completeTree_locked :
    let outcome (line : List String) := Cli.run (line.map Utf8.ofString) {} "" lockedDisk
    let file (line : List String) := (outcome line).disk.lookup (Path.ofString "api/z.ts").names
    let unlocked := ["-I", "locked", "-I", "m.ts"]
    ((outcome []).code = 1 ∧
      file [] = some (.file (Utf8.ofString "import a from './a';\n"))) ∧
    ((outcome ["--keep-going"]).code = 1 ∧
      file ["--keep-going"] = some (.file (Utf8.ofString "import a from './a.js';\n"))) ∧
    ((outcome unlocked).code = 0 ∧ (outcome ("--keep-going" :: unlocked)).code = 0 ∧
      file unlocked = some (.file (Utf8.ofString "import a from './a.js';\n"))) ∧
    (outcome ["-I", "["]).code = 1 ∧ (outcome ["--keep-going", "-I", "["]).code = 1 ∧
    (outcome ["gone"]).code = 1 ∧ (outcome ["--keep-going", "gone"]).code = 1 := by
  intro outcome file unlocked
  have hlines (line : List String) (arguments : Cli.Arguments)
      (hline : (Cli.Arguments.parse (line.map Utf8.ofString)).toOption = some arguments) :=
    (exitStatus_completeTree arguments .silent () lockedDisk
      Reporter.silent_leavesDisk).2.2.2 _ {} "" (eq_ok_of_toOption hline)
  have hrun (arguments : Cli.Arguments) (ignored : List Glob.Pattern)
      (hroot : arguments.settings.root = Path.ofString "api")
      (hignored : (Glob.parseAll arguments.ignorePatterns).toOption = some ignored) :=
    completeTree_locked arguments.settings (arguments.reporter {}) {}
      (arguments.reporter_leavesDisk {}) hroot hignored
  let going : Cli.Arguments := { keepGoing := true }
  let ignoring : Cli.Arguments := { ignorePatterns := ["locked", "m.ts"] }
  let patterns : List Glob.Pattern := ["locked", "m.ts"].map fun text => text.toList.map .char
  have hstop := hrun {} [] rfl rfl
  have hgoOn := hrun going [] rfl rfl
  have hignore := hrun ignoring patterns rfl (by decide +kernel)
  obtain ⟨⟨hcode, hleft, -⟩, hkeep⟩ := hlines [] {} (by decide +kernel)
  obtain ⟨⟨-, hgone, -⟩, -⟩ := hlines ["--keep-going"] going (by decide +kernel)
  obtain ⟨⟨hopened, hdone, -⟩, hkeepOpened⟩ := hlines unlocked ignoring (by decide +kernel)
  obtain ⟨-, hpattern⟩ := hlines ["-I", "["] { ignorePatterns := ["["] } (by decide +kernel)
  obtain ⟨-, hroot⟩ := hlines ["gone"] { root := some (Path.ofString "gone") } (by decide +kernel)
  have hfile {line : List String} {disk : Disk} (h : (outcome line).disk = disk) :
      file line = disk.lookup (Path.ofString "api/z.ts").names := by
    rw [← h]
  have hstops : (outcome []).code = 1 := by
    rw [hcode.trans (congrArg (fun run => exitCode run.result) hstop)]
    decide +kernel
  have hopens : (outcome unlocked).code = 0 := by
    rw [hopened.trans (congrArg (fun run => exitCode run.result) hignore)]
    decide +kernel
  have hbad : (outcome ["-I", "["]).code = 1 := by decide +kernel
  have hnothing : (outcome ["gone"]).code = 1 := by decide +kernel
  refine ⟨⟨hstops, ?_⟩, ⟨(hkeep "" rfl).trans hstops, ?_⟩,
    ⟨hopens, (hkeepOpened "" rfl).trans hopens, ?_⟩, hbad, (hpattern "" rfl).trans hbad, hnothing,
    (hroot "" rfl).trans hnothing⟩
  · rw [hfile (hleft.trans (congrArg (fun run => run.final.disk) hstop))]
    decide +kernel
  · rw [hfile (hgone.trans (congrArg (fun run => run.final.disk) hgoOn))]
    decide +kernel
  · rw [hfile (hdone.trans (congrArg (fun run => run.final.disk) hignore))]
    decide +kernel

end Locked

end ExplicitImports
