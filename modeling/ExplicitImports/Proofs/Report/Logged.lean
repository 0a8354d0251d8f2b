import ExplicitImports.Proofs.Report.ExitStatus
import ExplicitImports.Proofs.Report.Lines
import ExplicitImports.Proofs.Report.Transcript
import ExplicitImports.Proofs.Walk.Visited

/-!
# The log of a run

The log of a run that returns a summary is an account of it, line by line: each step of the walk
has its lines, a file that is taken up is noted down and right after it what came of it, and no
other lines are there.

* `Visit.outcomes` — what comes of visits one after another, each made on the disk that is left by
  the one before it and by the reporter.
* `exists_visits` — a run that returns a summary is visits in the order of their names, and their
  outcomes are what has happened and what the summary counts.
* `Cli.Arguments.run_eq_runAt` — the command shows what there is up to a level, and nothing else
  depends on it.
* `Cli.Arguments.stepText`, `Cli.Arguments.join_eventText` — what the error stream gets of each
  step.
* `log_completeTree` — the log, the summary, the walk and the error stream agree.
-/

namespace ExplicitImports

open RunM

section Visits

variable {σ : Type}

/-- The disk after the reporter was told what came of a step. -/
def Reporter.touched (reporter : Reporter σ) (policy : FailurePolicy) (outcome : Outcome)
    (disk : Disk) : Disk :=
  ((outcome.notice policy).filterMap Event.called?).foldl
    (fun disk callback => reporter.touch callback disk) disk

/-- What comes of visits one after another, each made on the disk that the one before it and the
reporter have left. -/
def Visit.outcomes (settings : Settings) (reporter : Reporter σ) : Disk → List Visit → List Outcome
  | _, [] => []
  | disk, visit :: visits =>
      let outcome := visit.outcome settings disk
      let next := reporter.touched settings.onFailure outcome (visit.diskAfter settings disk)
      outcome :: outcomes settings reporter next visits

/-- What is done about an outcome changes the disk only through the reporter. -/
theorem Traversal.disk_exec_settle (traversal : Traversal σ) (outcome : Outcome)
    (state : RunState σ) :
    (exec (traversal.settle outcome) state).2.disk =
      traversal.reporter.touched traversal.settings.onFailure outcome state.disk := by
  have htell (callback : Callback) (update : Summary → Summary) (now : RunState σ) :
      (exec (do traversal.tell callback; summarize update) now).2.disk =
        traversal.reporter.touch callback now.disk := by
    rw [exec_tell_summarize]
    split <;> rfl
  have hfail (error : RunError) : (exec (traversal.fail error) state).2.disk =
      ((error.notice traversal.settings.onFailure).filterMap Event.called?).foldl
        (fun disk callback => traversal.reporter.touch callback disk) state.disk := by
    cases hpolicy : traversal.settings.onFailure with
    | stop => rw [exec_fail_of_stop hpolicy]; rfl
    | goOn => rw [exec_fail_eq_tell state hpolicy, htell]; rfl
  cases outcome with
  | ignored path => rfl
  | unchanged path => rfl
  | fixed file => exact htell _ _ state
  | unlisted path cause => exact hfail _
  | broken path tried error => exact hfail error

/-- Visits that are all carried out: what comes of them is what happens, and it is counted. -/
theorem Traversal.counted_exec_visits {traversal : Traversal σ} {visits : List Visit}
    {before : List Outcome} {state next : RunState σ}
    (htrace : state.trace = before.flatMap (Outcome.events traversal.settings))
    (hcounted : Counted traversal.settings before state.summary)
    (h : exec (visits.forM traversal.perform) state = (.ok (), next)) :
    let outcomes := before ++
      Visit.outcomes traversal.settings traversal.reporter state.disk visits
    next.trace = outcomes.flatMap (Outcome.events traversal.settings) ∧
      Counted traversal.settings outcomes next.summary := by
  -- The outcome of each visit joins those before it, so that the count starts from any state.
  induction visits generalizing before state with
  | nil =>
      cases h
      simpa [Visit.outcomes] using And.intro htrace hcounted
  | cons visit visits ih =>
      let outcome := visit.outcome traversal.settings state.disk
      let worked := state.afterWork traversal.settings outcome
        (visit.diskAfter traversal.settings state.disk)
      have hlonger : (exec (traversal.settle outcome) worked).2.trace =
          (before ++ [outcome]).flatMap (Outcome.events traversal.settings) := by
        rw [trace_exec_settle_afterWork, htrace]
        simp
      have hafter := traversal.disk_exec_settle outcome worked
      rw [exec_forM_cons, visit.exec_perform_eq_settle] at h
      cases hexec : exec (traversal.settle outcome) worked with
      | mk result between =>
          rw [hexec] at h hlonger hafter
          cases result with
          | error e => cases h
          | ok _ =>
              obtain ⟨hsummary, herror⟩ := traversal.summary_exec_settle (by rw [hexec])
              rw [hexec] at hsummary
              have hmore : Counted traversal.settings (before ++ [outcome]) between.summary :=
                hsummary ▸ hcounted.concat herror
              have hrest := ih hlonger hmore h
              rw [hafter, List.append_assoc] at hrest
              exact hrest

/-- The visits of a run that returns a summary.  They come in the order of their names and are
such as the settings ask for; with a reporter that leaves the disk alone they are those that are
due.  What comes of them is all that happens until the summary is told, and the summary counts
it. -/
theorem exists_visits {settings : Settings} {reporter : Reporter σ} {memory : σ} {disk : Disk}
    {summary : Summary} (h : (completeTree settings reporter memory disk).result = .ok summary) :
    ∃ visits : List Visit,
      let outcomes := Visit.outcomes settings reporter disk visits
      (visits.Pairwise fun a b => Precedes a.names b.names) ∧
      (∀ visit ∈ visits, visit.Fits settings) ∧
      (reporter.LeavesDisk → ∀ visit, visit ∈ visits ↔ visit.Due settings disk) ∧
      (completeTree settings reporter memory disk).final.trace =
        outcomes.flatMap (Outcome.events settings) ++ [.called (.done summary)] ∧
      Counted settings outcomes summary := by
  let start : RunState σ := .initial settings memory disk
  have hrun : exec (runTree settings reporter) start =
      (.ok summary, (completeTree settings reporter memory disk).final) := by
    rw [← h]
    rfl
  obtain ⟨ignored, kind, hignored, hkind⟩ := exists_of_exec_runTree (congrArg Prod.fst hrun)
  let traversal : Traversal σ := { settings, ignored, reporter }
  obtain ⟨visits, hmakes, hdue⟩ := traversal.exists_visits_walk hignored hkind
  refine ⟨visits, hmakes.ordered, hmakes.fits, hdue, ?_⟩
  rw [exec_runTree_eq, hignored] at hrun
  simp only [hkind] at hrun
  rw [exec_bind, hmakes.ended_eq] at hrun
  -- The summary is told after all visits, so none of them has ended the run.
  cases hvisits : exec (visits.forM traversal.perform) start with
  | mk result next =>
      rw [hvisits] at hrun
      cases result with
      | error e => cases hrun
      | ok _ =>
          obtain ⟨htrace, hcounted⟩ := traversal.counted_exec_visits rfl .nil hvisits
          have hsummary : summary = next.summary :=
            Traversal.eq_of_exec_finish (congrArg Prod.fst hrun)
          have hfinal : next.told reporter (.done next.summary) =
              (completeTree settings reporter memory disk).final := by
            simp only [Traversal.exec_finish] at hrun
            exact congrArg Prod.snd hrun
          subst hsummary
          refine ⟨?_, hcounted⟩
          rw [← hfinal, RunState.told, htrace]
          rfl

end Visits

section Levels

/-- What is not shown adds nothing to a text. -/
theorem join_map_filter {α : Type} (shown : α → Bool) (text : α → String) (items : List α) :
    String.join ((items.filter shown).map text) =
      String.join (items.map fun item => if shown item then text item else "") := by
  induction items with
  | nil => rfl
  | cons item items ih =>
      rw [List.map_cons, String.join_cons, ← ih, List.filter_cons]
      cases shown item with
      | true => simp
      | false => simp

namespace Cli.Arguments

variable (arguments : Arguments) (environment : Environment) (time : String) (level : Log.Level)

/-- A line on the error stream where those up to a level are shown. -/
def lineText (line : Log.Line) : String :=
  if line.level ∈ level.upTo then line.printed (arguments.wantsColor environment) time else ""

/-- What an event puts on the error stream then. -/
def eventText : Event → String
  | .file (.log record) => arguments.lineText environment time level record.said
  | .file _ => ""
  | .called callback =>
      if arguments.json then "" else (arguments.console environment).errText callback

@[simp]
theorem eventText_log (record : Log.Record) :
    arguments.eventText environment time level (.log record) =
      arguments.lineText environment time level record.said := rfl

@[simp]
theorem eventText_read (path : Path) :
    arguments.eventText environment time level (.file (.read path)) = "" := rfl

@[simp]
theorem eventText_wrote (path : Path) (complete : Bool) :
    arguments.eventText environment time level (.file (.wrote path complete)) = "" := rfl

@[simp]
theorem eventText_fixed (file : Fix) :
    arguments.eventText environment time level (.called (.fixed file)) = "" := by
  simp [eventText, Console.errText]

/-- A run of which the lines up to a level are shown: the level has no part in the run itself. -/
def runAt (disk : Disk) : Outcome :=
  let run := completeTree arguments.settings (arguments.reporter environment) {} disk
  let log := String.join (run.final.trace.map (arguments.eventText environment time level))
  { code := exitCode run.result
    stdout := run.final.reporter.out.received
    stderr := match run.result with
      | .ok _ => log
      | .error error => log ++ Help.name ++ ": " ++ error.message ++ "\n"
    disk := run.final.disk }

section Filter

variable {arguments environment level} (h : arguments.logFilter environment = .upTo level)

include h

/-- The filter for one level shows the lines up to it. -/
theorem errText_eq : arguments.errText environment time =
    arguments.eventText environment time level := by
  funext event
  cases event with
  | called callback => rfl
  | file event =>
      cases event with
      | log record =>
          have hshown : record.level.shownAt level = true ↔ record.said.level ∈ level.upTo :=
            Log.Level.shownAt_iff _ _
          simp only [errText, eventText, lineText, h, Log.Filter.shows_upTo, hshown,
            Log.Record.printed_eq]
      | read path => rfl
      | wrote path complete => rfl

/-- A command that shows records up to a level is the run of which these are shown. -/
theorem run_eq_runAt (disk : Disk) :
    arguments.run environment time disk = arguments.runAt environment time level disk := by
  have htext := errText_eq time h
  cases hresult :
      (completeTree arguments.settings (arguments.reporter environment) {} disk).result with
  | ok summary => simp only [run, runAt, htext, hresult]
  | error e => simp only [run, runAt, htext, hresult]

end Filter

/-- The notice of a failure or the line of a summary, unless the report is for programs. -/
def noticeText (callback : Callback) : String :=
  let console := arguments.console environment
  if arguments.json then ""
  else String.join ((console.spans callback).map (Span.shown console.color))

theorem eventText_of_fixed?_eq_none {callback : Callback} (h : callback.fixed? = none) :
    arguments.eventText environment time level (.called callback) =
      arguments.noticeText environment callback := by
  simp only [eventText, noticeText]
  rw [(arguments.console environment).errText_eq_join h]

/-- What a step puts on the error stream where lines are shown up to a level: those of its lines
and then, if it comes to an error, the notice of it. -/
def stepText (outcome : ExplicitImports.Outcome) : String :=
  let lines := (outcome.lines arguments.settings).filter (·.level ∈ level.upTo)
  String.join (lines.map (Log.Line.printed (arguments.wantsColor environment) time)) ++
    match outcome.error? with
    | none => ""
    | some error => arguments.noticeText environment (.failed error.failure)

open ExplicitImports.Outcome in
/-- That is what the events of a step add up to, if it does not stop the run. -/
theorem join_eventText {outcome : ExplicitImports.Outcome}
    (h : arguments.settings.onFailure = .stop → outcome.error? = none) :
    String.join ((outcome.events arguments.settings).map
        (arguments.eventText environment time level)) =
      arguments.stepText environment time level outcome := by
  have hlines : String.join (((outcome.lines arguments.settings).filter
      (·.level ∈ level.upTo)).map (Log.Line.printed (arguments.wantsColor environment) time)) =
        String.join ((outcome.lines arguments.settings).map
          (arguments.lineText environment time level)) := by
    rw [join_map_filter]
    simp only [decide_eq_true_eq]
    rfl
  have hfailed (error : RunError) :
      arguments.eventText environment time level (.called (.failed error.failure)) =
        arguments.noticeText environment (.failed error.failure) :=
    arguments.eventText_of_fixed?_eq_none environment time level rfl
  rw [stepText, hlines, ← said_events _ _ h]
  cases outcome with
  | ignored path => simp [events, work, notice, error?, Event.record?]
  | unchanged path => simp [events, work, notice, error?, Event.record?, List.filterMap_cons]
  | unlisted path cause =>
      have hpolicy := onFailure_eq_goOn rfl h
      simp [events, work, notice, RunError.notice, hpolicy, error?, Event.record?,
        List.filterMap_cons, hfailed]
  | fixed file =>
      cases hdry : arguments.settings.dryRun with
      | false => simp [events, work, notice, error?, Event.record?, List.filterMap_cons, hdry]
      | true => simp [events, work, notice, error?, Event.record?, List.filterMap_cons, hdry]
  | broken path tried error =>
      have hpolicy := onFailure_eq_goOn rfl h
      cases tried with
      | false =>
          simp [events, work, notice, RunError.notice, hpolicy, error?, Event.record?,
            List.filterMap_cons, hfailed, String.append_assoc]
      | true =>
          simp [events, work, notice, RunError.notice, hpolicy, error?, Event.record?,
            List.filterMap_cons, hfailed, String.append_assoc]

/-- What steps and then the report of a summary put on the error stream. -/
theorem join_eventText_flatMap {outcomes : List ExplicitImports.Outcome}
    (h : arguments.settings.onFailure = .stop → ∀ outcome ∈ outcomes, outcome.error? = none)
    (summary : Summary) :
    String.join ((outcomes.flatMap (ExplicitImports.Outcome.events arguments.settings) ++
        [Event.called (.done summary)]).map (arguments.eventText environment time level)) =
      String.join (outcomes.map (arguments.stepText environment time level)) ++
        arguments.noticeText environment (.done summary) := by
  have hdone : arguments.eventText environment time level (.called (.done summary)) =
      arguments.noticeText environment (.done summary) :=
    arguments.eventText_of_fixed?_eq_none environment time level rfl
  rw [List.map_append, String.join_append, List.map_singleton, hdone]
  congr 1
  induction outcomes with
  | nil => rfl
  | cons outcome outcomes ih =>
      have hfirst := arguments.join_eventText environment time level
        fun hpolicy => h hpolicy outcome List.mem_cons_self
      have hrest := ih fun hpolicy later hlater =>
        h hpolicy later (List.mem_cons_of_mem outcome hlater)
      rw [List.flatMap_cons, List.map_append, String.join_append, hfirst, hrest, List.map_cons,
        String.join_cons]

end Cli.Arguments

end Levels

/-- The log of a run that returns a summary.  The run is visits in the order of their names, which
are such as the settings ask for; with a reporter that leaves the disk alone they are those that are
due.  The log has the lines of what came of them and no others, and the summary has the fixes and
the errors among the same outcomes.  So the lines that say that a file is taken up are as many as
the summary counts, those that tell of a fix tell the fixes of the summary with their counts, and
those that tell of an error that is passed over have the texts of its failures.  At the debug level
every line is shown.  A command shows lines up to some level, which the flags ask for or the
environment; the run is the same, and of each step the error stream gets those of its lines that
are not below the level, and the notice of a failure after them. -/
theorem log_completeTree {σ : Type} (settings : Settings) (reporter : Reporter σ) (memory : σ)
    (disk : Disk) :
    let run := completeTree settings reporter memory disk
    let log := run.final.log.map Log.Record.said
    (∀ summary, run.result = .ok summary →
      (∃ visits : List Visit,
        let outcomes := Visit.outcomes settings reporter disk visits
        (visits.Pairwise fun a b => Precedes a.names b.names) ∧
        (∀ visit ∈ visits, visit.Fits settings) ∧
        (reporter.LeavesDisk → ∀ visit, visit ∈ visits ↔ visit.Due settings disk) ∧
        log = outcomes.flatMap (Outcome.lines settings) ∧
        summary.fixed = outcomes.filterMap Outcome.fixed? ∧
        summary.failures = (outcomes.filterMap Outcome.error?).map RunError.failure) ∧
      (log.filter (·.message = "scanning")).length = summary.scanned ∧
      log.filter (·.message ∈ ["rewrote imports", "dry run, not writing"]) =
        summary.fixed.map (.rewrote settings.dryRun) ∧
      log.filter (·.message = "skipping after error") =
        summary.failures.map fun failure => .skipping failure.error) ∧
    (∀ line ∈ log, line.level ∈ Log.Level.debug.upTo) ∧
    ∀ (arguments : Cli.Arguments) (environment : Cli.Environment) (time : String),
      let asked (verbosity : Nat) : Cli.Arguments := { arguments with verbosity }
      let around (text : Option String) : Cli.Environment := { environment with logFilter := text }
      (∀ verbosity, (asked verbosity).logFilter (around none) =
        .upTo (if verbosity = 0 then .warn else if verbosity = 1 then .info else .debug)) ∧
      (∀ verbosity text level, (asked verbosity).logFilter (around text) = .upTo level →
        (asked verbosity).run (around text) time disk =
          arguments.runAt environment time level disk) ∧
      ∀ summary,
        (completeTree arguments.settings (arguments.reporter environment) {} disk).result =
          .ok summary →
        ∃ visits : List Visit,
          (visits.Pairwise fun a b => Precedes a.names b.names) ∧
          (∀ visit, visit ∈ visits ↔ visit.Due arguments.settings disk) ∧
          let outcomes :=
            Visit.outcomes arguments.settings (arguments.reporter environment) disk visits
          ∀ level, (arguments.runAt environment time level disk).stderr =
            String.join (outcomes.map (arguments.stepText environment time level)) ++
              arguments.noticeText environment (.done summary) := by
  intro run log
  refine ⟨?_, ?_, ?_⟩
  · intro summary hsummary
    obtain ⟨visits, hordered, hfits, hdue, htrace, hcounted⟩ := exists_visits hsummary
    have hlog : log =
        (Visit.outcomes settings reporter disk visits).flatMap (Outcome.lines settings) := by
      simp only [log]
      rw [RunState.log_eq, htrace, List.filterMap_append, List.map_append,
        Outcome.said_flatMap_events settings hcounted.error?_eq]
      exact List.append_nil _
    refine ⟨⟨visits, hordered, hfits, hdue, hlog, hcounted.fixed_eq, hcounted.failures_eq⟩,
      ?_, ?_, ?_⟩
    · rw [hlog, List.filter_flatMap, hcounted.scanned_eq, List.filterMap_eq_flatMap_toList]
      simp only [Outcome.filter_scanning_lines]
      rw [← List.map_flatMap, List.length_map]
    · rw [hlog, List.filter_flatMap, hcounted.fixed_eq, List.filterMap_eq_flatMap_toList]
      simp only [Outcome.filter_rewrote_lines]
      rw [← List.map_flatMap]
    · rw [hlog, List.filter_flatMap, hcounted.failures_eq, List.map_map,
        List.filterMap_eq_flatMap_toList, List.map_flatMap]
      simp only [Outcome.filter_skipping_lines]
      rfl
  · intro line hline
    obtain ⟨record, -, rfl⟩ := List.mem_map.1 hline
    exact record.level_mem_upTo_debug
  · intro arguments environment time asked around
    refine ⟨?_, ?_, ?_⟩
    · intro verbosity
      match verbosity with
      | 0 => rfl
      | 1 => rfl
      | _ + 2 => rfl
    · intro verbosity text level hlevel
      exact Cli.Arguments.run_eq_runAt time hlevel disk
    · intro summary hsummary
      obtain ⟨visits, hordered, -, hdue, htrace, hcounted⟩ := exists_visits hsummary
      refine ⟨visits, hordered, hdue (arguments.reporter_leavesDisk environment), ?_⟩
      intro outcomes level
      simp only [Cli.Arguments.runAt, hsummary, htrace]
      exact arguments.join_eventText_flatMap environment time level hcounted.error?_eq summary

theorem Log.Filter.parse?_info : parse? "info" = some (upTo .info) := by
  have hsplit : "info".splitOn "," = ["info"] := by
    unfold String.splitOn
    rw [if_neg (by decide)]
    -- None of the four characters starts a separator.
    iterate 4 rw [String.splitOnAux, if_neg (by decide +kernel), if_neg (by decide +kernel)]
    rw [String.splitOnAux, if_pos (by decide +kernel)]
    decide +kernel
  unfold parse?
  rw [hsplit]
  decide +kernel

/-- On the sample the link `r/b.ts` leads to a file that was fixed before, `r/c.ts` leads nowhere,
and `v` is ignored.  A command shows all of it with two flags, the gravest lines without, and what
the environment asks for if it does. -/
theorem log_completeTree_sample :
    let run := completeTree sampleSettings .silent () sampleDisk
    let log := run.final.log.map Log.Record.said
    let asked (verbosity : Nat) : Cli.Arguments :=
      { root := some sampleSettings.root, ignorePatterns := ["v"], keepGoing := true, verbosity }
    let shown (verbosity : Nat) (logFilter : Option String) : String :=
      ((asked verbosity).run { logFilter } "now" sampleDisk).stderr
    log =
        [⟨.debug, "scanning", [("path", "r/a/z.ts")]⟩,
          ⟨.info, "rewrote imports", [("path", "r/a/z.ts"), ("imports", "1")]⟩,
          ⟨.debug, "scanning", [("path", "r/a.ts")]⟩,
          ⟨.info, "rewrote imports", [("path", "r/a.ts"), ("imports", "1")]⟩,
          ⟨.debug, "scanning", [("path", "r/b.ts")]⟩,
          ⟨.debug, "no imports to fix", [("path", "r/b.ts")]⟩,
          ⟨.debug, "scanning", [("path", "r/c.ts")]⟩,
          ⟨.warn, "skipping after error",
            [("error", "r/c.ts: No such file or directory (os error 2)")]⟩,
          ⟨.debug, "ignored by pattern", [("path", "r/v")]⟩] ∧
      (log.filter (·.message = "scanning")).length = 4 ∧
      (∃ visits : List Visit,
        (visits.Pairwise fun a b => Precedes a.names b.names) ∧
        (∀ visit, visit ∈ visits ↔ visit.Due sampleSettings sampleDisk) ∧
        log = (Visit.outcomes sampleSettings .silent sampleDisk visits).flatMap
          (Outcome.lines sampleSettings)) ∧
      shown 2 none =
        "now DEBUG scanning path=r/a/z.ts\nnow  INFO rewrote imports path=r/a/z.ts imports=1\n" ++
        "now DEBUG scanning path=r/a.ts\nnow  INFO rewrote imports path=r/a.ts imports=1\n" ++
        "now DEBUG scanning path=r/b.ts\nnow DEBUG no imports to fix path=r/b.ts\n" ++
        "now DEBUG scanning path=r/c.ts\n" ++
        "now  WARN skipping after error error=r/c.ts: No such file or directory (os error 2)\n" ++
        "error: r/c.ts: No such file or directory (os error 2)\n" ++
        "now DEBUG ignored by pattern path=r/v\n" ++
        "2 files fixed, 2 imports rewritten (4 scanned), 1 failure\n" ∧
      shown 0 none =
        "now  WARN skipping after error error=r/c.ts: No such file or directory (os error 2)\n" ++
        "error: r/c.ts: No such file or directory (os error 2)\n" ++
        "2 files fixed, 2 imports rewritten (4 scanned), 1 failure\n" ∧
      shown 0 (some "info") =
        "now  INFO rewrote imports path=r/a/z.ts imports=1\n" ++
        "now  INFO rewrote imports path=r/a.ts imports=1\n" ++
        "now  WARN skipping after error error=r/c.ts: No such file or directory (os error 2)\n" ++
        "error: r/c.ts: No such file or directory (os error 2)\n" ++
        "2 files fixed, 2 imports rewritten (4 scanned), 1 failure\n" := by
  intro run log asked shown
  obtain ⟨hok, -, hcommand⟩ := log_completeTree sampleSettings .silent () sampleDisk
  obtain ⟨⟨visits, hordered, -, hdue, hlog, -⟩, hscanned, -⟩ :=
    hok sampleSummary result_completeTree_sample
  obtain ⟨hlevel, hshown, -⟩ := hcommand (asked 0) {} "now"
  have hrun (verbosity : Nat) (text : Option String) (level : Log.Level)
      (h : (asked verbosity).logFilter { logFilter := text } = .upTo level) :
      shown verbosity text = ((asked 0).runAt {} "now" level sampleDisk).stderr :=
    congrArg Cli.Outcome.stderr (hshown verbosity text level h)
  have hsample := completeTree_sample (asked 0).settings ((asked 0).reporter {}) {}
    ((asked 0).reporter_leavesDisk {}) rfl rfl rfl
  refine ⟨?_, hscanned, ⟨visits, hordered, hdue Reporter.silent_leavesDisk, hlog⟩, ?_, ?_, ?_⟩
  · simp only [log, run]
    rw [completeTree_sample sampleSettings .silent () Reporter.silent_leavesDisk rfl rfl rfl]
    decide +kernel
  · rw [hrun 2 none .debug (hlevel 2)]
    unfold Cli.Arguments.runAt
    rw [hsample]
    decide +kernel
  · rw [hrun 0 none .warn (hlevel 0)]
    unfold Cli.Arguments.runAt
    rw [hsample]
    decide +kernel
  · have hinfo : (asked 0).logFilter { logFilter := some "info" } = .upTo .info := by
      show (Log.Filter.parse? "info").getD _ = _
      rw [Log.Filter.parse?_info]
      rfl
    rw [hrun 0 (some "info") .info hinfo]
    unfold Cli.Arguments.runAt
    rw [hsample]
    decide +kernel

end ExplicitImports
