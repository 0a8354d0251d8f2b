import ExplicitImports.Proofs.Report.Kept
import ExplicitImports.Proofs.Walk.Scanned

/-!
# How a run ends

A run may be ended by a pattern that cannot be read, by a root that is not there, by an
answer of the reporter, or by a failure where failures are to stop it.  The reporter may do
to the disk what it likes.

* `Reporter.answers`, `Reporter.remembered` — what a reporter answers to a list of callbacks,
  and what it remembers of them; `reporter_completeTree` — at the end of a run it remembers
  nothing else.
* `Unrefused`, `EndedBy`, `ends_settle` — before each step the reporter has refused nothing,
  and a step ends the run in one of three ways.
* `Ending`, `ending_of_walked` — how a run ends that comes to its walk.
* `ending_completeTree` — the result of a run from its patterns, its root, the answers of the
  reporter and the failure policy.
-/

namespace ExplicitImports

open RunM

namespace Reporter

variable {σ : Type} (reporter : Reporter σ)

/-- What the reporter remembers when it was told these things one after another. -/
def remembered (memory : σ) (callbacks : List Callback) : σ :=
  callbacks.foldl (fun memory callback => (reporter.tell callback memory).2) memory

/-- What the reporter answers when it is told these things one after another. -/
def answers : σ → List Callback → List (Except IoError Unit)
  | _, [] => []
  | memory, callback :: rest =>
      (reporter.tell callback memory).1 :: answers (reporter.tell callback memory).2 rest

variable (memory : σ) (callbacks : List Callback) (callback : Callback)

theorem remembered_concat :
    reporter.remembered memory (callbacks ++ [callback]) =
      (reporter.tell callback (reporter.remembered memory callbacks)).2 := by
  unfold remembered
  rw [List.foldl_append]
  rfl

/-- The last answer is given with everything told before in memory. -/
theorem answers_concat :
    reporter.answers memory (callbacks ++ [callback]) =
      reporter.answers memory callbacks ++
        [(reporter.tell callback (reporter.remembered memory callbacks)).1] := by
  induction callbacks generalizing memory with
  | nil => rfl
  | cons first rest ih =>
      rw [List.cons_append, answers, ih, answers]
      rfl

end Reporter

section Run

variable {σ : Type} (settings : Settings) (reporter : Reporter σ) (memory : σ) (disk : Disk)

/-- At the end of a run the reporter remembers what it was told, and nothing else. -/
theorem reporter_completeTree :
    let final := (completeTree settings reporter memory disk).final
    final.reporter = reporter.remembered memory final.callbacks := by
  intro final
  let remembers (state : RunState σ) : Prop :=
    state.reporter = reporter.remembered memory state.callbacks
  have htold (state : RunState σ) (callback : Callback) (hstate : remembers state) :
      remembers (state.told reporter callback) := by
    show (reporter.tell callback state.reporter).2 = _
    rw [RunState.callbacks_told, reporter.remembered_concat, ← hstate]
  have hsteps (traversal : Traversal σ) (state : RunState σ) (outcome : Outcome) (next : Disk)
      (_ : traversal.settings = settings) (hreporter : traversal.reporter = reporter)
      (hstate : remembers state) (_ : Step settings state.disk outcome next) :
      Ends remembers (fun _ => remembers)
        (exec (traversal.settle outcome) (state.afterWork settings outcome next)) := by
    subst hreporter
    have hworked : remembers (state.afterWork settings outcome next) := by
      show state.reporter = _
      rw [RunState.callbacks_afterWork, ← hstate]
    apply Ends.of_always
    cases traversal.settleCase outcome (state.afterWork settings outcome next) with
    | silent hexec => exact hexec ▸ hworked
    | stopped hpolicy herror hexec => exact hexec ▸ hworked
    | @told callback update noted hcallback hnoted hexec =>
        let worked := state.afterWork settings outcome next
        let now : RunState σ := { worked with trace := worked.trace ++ noted }
        have hnow : remembers now := by
          show worked.reporter = _
          rw [RunState.callbacks_eq, List.filterMap_append, hnoted, List.append_nil,
            ← RunState.callbacks_eq, ← hworked]
        have hnext := htold now callback hnow
        rw [hexec, Traversal.exec_tell_summarize]
        split <;> exact hnext
  have hstart : remembers (.initial settings memory disk) := rfl
  show remembers (completeTree settings reporter memory disk).final
  rcases completeTree_cases hsteps hstart with
    ⟨hfinal, -⟩ | ⟨-, -, hfinal⟩ | ⟨state, hstate, hfinal, -⟩
  · rw [hfinal]
    exact hstart
  · exact hfinal
  · rw [hfinal]
    exact htold state _ hstate

end Run

/-- The reporter was not told of a summary yet, and has refused nothing of what it was told. -/
structure Unrefused {σ : Type} (reporter : Reporter σ) (memory : σ) (state : RunState σ) :
    Prop where
  remembers : state.reporter = reporter.remembered memory state.callbacks
  answers : ∀ answer ∈ reporter.answers memory state.callbacks, answer = .ok ()
  unreported : ∀ summary, .done summary ∉ state.callbacks

/-- What may end a walk, and the state in which it does: an answer of the reporter, or the
failure of a file or of a directory where failures are to stop the run. -/
inductive EndedBy {σ : Type} (settings : Settings) (reporter : Reporter σ) (memory : σ) :
    RunError → RunState σ → Prop
  | refused {cause : IoError} {state : RunState σ} {earlier : List (Except IoError Unit)}
      (hanswers : reporter.answers memory state.callbacks = earlier ++ [.error cause])
      (hearlier : ∀ answer ∈ earlier, answer = .ok ()) :
      EndedBy settings reporter memory (.output cause) state
  | file {path : Path} {cause : IoError} {state : RunState σ}
      (hpolicy : settings.onFailure = .stop) (hstate : Unrefused reporter memory state)
      (hlast : state.scanned.getLast? = some path) :
      EndedBy settings reporter memory (.io path cause) state
  | directory {path : Path} {cause : IoError} {state : RunState σ}
      (hpolicy : settings.onFailure = .stop) (hstate : Unrefused reporter memory state) :
      EndedBy settings reporter memory (Traversal.listingError path cause) state

/-- A step fails with the error of a file that it has taken up, or of a directory. -/
theorem Step.error?_eq {settings : Settings} {disk next : Disk} {outcome : Outcome}
    {error : RunError} (h : Step settings disk outcome next)
    (herror : outcome.error? = some error) :
    (∃ path cause, error = .io path cause ∧ outcome.scanned? = some path) ∨
      ∃ path cause, error = Traversal.listingError path cause ∧ outcome.scanned? = none := by
  cases h with
  | ignored path => cases herror
  | unlisted path cause =>
      cases herror
      exact .inr ⟨path, cause, rfl, rfl⟩
  | taken path =>
      refine .inl ?_
      rw [scanned?_outcome]
      unfold FileRun.outcome at herror
      split at herror
      · cases herror
      · cases herror
      · rename_i found hfound
        cases herror
        obtain ⟨cause, rfl⟩ := completeFile_error hfound
        exact ⟨path, cause, rfl, rfl⟩

section Steps

variable {σ : Type} {settings : Settings} {reporter : Reporter σ} {memory : σ}
  {state : RunState σ}

/-- What the reporter has answered when it was told one thing more. -/
theorem Unrefused.answers_told (h : Unrefused reporter memory state) (callback : Callback) :
    reporter.answers memory (state.told reporter callback).callbacks =
      reporter.answers memory state.callbacks ++ [(reporter.tell callback state.reporter).1] := by
  rw [RunState.callbacks_told, reporter.answers_concat, h.remembers]

/-- If it accepts this too, it has refused nothing. -/
theorem Unrefused.answers_told_of_ok (h : Unrefused reporter memory state) {callback : Callback}
    (hanswer : (reporter.tell callback state.reporter).1 = .ok ()) :
    ∀ answer ∈ reporter.answers memory (state.told reporter callback).callbacks,
      answer = .ok () := by
  intro answer hmem
  rw [h.answers_told, hanswer] at hmem
  rcases List.mem_append.1 hmem with hearlier | hlast
  · exact h.answers answer hearlier
  · exact List.mem_singleton.1 hlast

/-- It is as before as long as nothing is told. -/
theorem Unrefused.of_callbacks_eq (h : Unrefused reporter memory state) {next : RunState σ}
    (hreporter : next.reporter = state.reporter) (hcallbacks : next.callbacks = state.callbacks) :
    Unrefused reporter memory next := by
  refine ⟨?_, ?_, ?_⟩
  · rw [hreporter, hcallbacks]
    exact h.remembers
  · rw [hcallbacks]
    exact h.answers
  · rw [hcallbacks]
    exact h.unreported

/-- Callbacks other than the report: the reporter takes them in, or ends the run. -/
theorem Unrefused.ends_tell {traversal : Traversal σ}
    (h : Unrefused traversal.reporter memory state) {callback : Callback}
    (hcallback : ∀ summary, callback ≠ .done summary)
    (update : Summary → Summary) :
    Ends (Unrefused traversal.reporter memory) (EndedBy settings traversal.reporter memory)
      (exec (do traversal.tell callback; summarize update) state) := by
  rw [Traversal.exec_tell_summarize]
  have hanswers := h.answers_told callback
  cases hanswer : (traversal.reporter.tell callback state.reporter).1 with
  | error cause =>
      rw [hanswer] at hanswers
      exact .refused hanswers h.answers
  | ok _ =>
      let told := state.told traversal.reporter callback
      have htold : Unrefused traversal.reporter memory told := by
        refine ⟨?_, h.answers_told_of_ok hanswer, ?_⟩
        · rw [RunState.callbacks_told, traversal.reporter.remembered_concat, ← h.remembers]
          rfl
        · intro summary
          rw [RunState.callbacks_told, List.mem_append, not_or, List.mem_singleton]
          exact ⟨h.unreported summary, (hcallback summary).symm⟩
      exact htold.of_callbacks_eq rfl rfl

/-- A step ends the run in one of the three ways, or else nothing was refused in it. -/
theorem ends_settle {traversal : Traversal σ} {outcome : Outcome} {next : Disk}
    (h : Unrefused traversal.reporter memory state)
    (hstep : Step traversal.settings state.disk outcome next) :
    Ends (Unrefused traversal.reporter memory)
      (EndedBy traversal.settings traversal.reporter memory)
      (exec (traversal.settle outcome) (state.afterWork traversal.settings outcome next)) := by
  let worked := state.afterWork traversal.settings outcome next
  have hworked : Unrefused traversal.reporter memory worked :=
    h.of_callbacks_eq rfl (state.callbacks_afterWork traversal.settings outcome next)
  cases traversal.settleCase outcome worked with
  | silent hexec =>
      rw [hexec]
      exact hworked
  | @stopped error hpolicy herror hexec =>
      have hscanned := traversal.scanned_exec_settle outcome state next
      rw [hexec] at hscanned ⊢
      rcases hstep.error?_eq herror with ⟨path, cause, rfl, hpath⟩ | ⟨path, cause, rfl, -⟩
      · refine .file hpolicy hworked ?_
        rw [hscanned, hpath]
        exact List.getLast?_concat
      · exact .directory hpolicy hworked
  | @told callback update noted hcallback hnoted hexec =>
      let now : RunState σ := { worked with trace := worked.trace ++ noted }
      have hcallbacks : now.callbacks = worked.callbacks := by
        rw [RunState.callbacks_eq, RunState.callbacks_eq, List.filterMap_append, hnoted,
          List.append_nil]
      have hnow : Unrefused traversal.reporter memory now := hworked.of_callbacks_eq rfl hcallbacks
      rw [hexec]
      exact hnow.ends_tell hcallback update

end Steps

/-- How a run ends that comes to its walk: with the report of the summary, by an answer of the
reporter, or by a failure where failures are to stop it. -/
inductive Ending {σ : Type} (settings : Settings) (reporter : Reporter σ) (memory : σ)
    (run : TreeRun σ) : Prop
  | reported {summary : Summary} (hresult : run.result = .ok summary)
      (hanswers : ∀ answer ∈ reporter.answers memory run.final.callbacks, answer = .ok ())
  | refused {cause : IoError} {earlier : List (Except IoError Unit)}
      (hresult : run.result = .error (.output cause))
      (hanswers : reporter.answers memory run.final.callbacks = earlier ++ [.error cause])
      (hearlier : ∀ answer ∈ earlier, answer = .ok ())
  | stopped {e : RunError} (hpolicy : settings.onFailure = .stop) (hresult : run.result = .error e)
      (hfinal : Unrefused reporter memory run.final)
      (hentry : ∃ path cause, e = .io path cause ∧ run.final.scanned.getLast? = some path ∨
        e = Traversal.listingError path cause)

namespace Ending

variable {σ : Type} {settings : Settings} {reporter : Reporter σ} {memory : σ} {run : TreeRun σ}
  (h : Ending settings reporter memory run)

include h

/-- What the reporter has answered last may be an error, nothing before it. -/
theorem answers_dropLast :
    ∀ answer ∈ (reporter.answers memory run.final.callbacks).dropLast, answer = .ok () := by
  cases h with
  | reported _ hanswers => exact fun answer hmem => hanswers answer (List.mem_of_mem_dropLast hmem)
  | refused _ hanswers hearlier =>
      rw [hanswers, List.dropLast_concat]
      exact hearlier
  | stopped _ _ hfinal _ =>
      exact fun answer hmem => hfinal.answers answer (List.mem_of_mem_dropLast hmem)

/-- An error that the reporter has answered with is what the run ends with. -/
theorem output_iff (cause : IoError) :
    run.result = .error (.output cause) ↔
      .error cause ∈ reporter.answers memory run.final.callbacks := by
  have hnone (haccepted : ∀ answer ∈ reporter.answers memory run.final.callbacks,
      answer = .ok ()) : .error cause ∉ reporter.answers memory run.final.callbacks :=
    fun hmem => nomatch haccepted _ hmem
  cases h with
  | reported hresult hanswers => simp [hresult, hnone hanswers]
  | refused hresult hanswers hearlier =>
      rw [hresult, hanswers, List.mem_append, List.mem_singleton]
      constructor
      · intro hsame
        cases hsame
        exact .inr rfl
      · rintro (hmem | hsame)
        · exact nomatch hearlier _ hmem
        · cases hsame
          rfl
  | stopped _ hresult hfinal hentry =>
      obtain ⟨path, found, ⟨rfl, -⟩ | rfl⟩ := hentry
      · simp [hresult, hnone hfinal.answers]
      · simp [hresult, hnone hfinal.answers, Traversal.listingError]

/-- Any other error is that of a file or of a directory, where failures are to stop the run. -/
theorem error_cases {e : RunError} (he : run.result = .error e) :
    (∃ cause, e = .output cause) ∨
      settings.onFailure = .stop ∧ (∀ summary, .done summary ∉ run.final.callbacks) ∧
        ∃ path cause, e = .io path cause ∧ run.final.scanned.getLast? = some path ∨
          e = Traversal.listingError path cause := by
  cases h with
  | reported hresult _ =>
      rw [hresult] at he
      cases he
  | @refused cause _ hresult _ _ =>
      rw [hresult] at he
      cases he
      exact .inl ⟨cause, rfl⟩
  | stopped hpolicy hresult hfinal hentry =>
      rw [hresult] at he
      cases he
      exact .inr ⟨hpolicy, hfinal.unreported, hentry⟩

/-- Where failures are passed over and nothing was refused, there is a summary. -/
theorem exists_ok (hpolicy : settings.onFailure = .goOn)
    (haccepted : ∀ answer ∈ reporter.answers memory run.final.callbacks, answer = .ok ()) :
    ∃ summary, run.result = .ok summary := by
  cases h with
  | @reported summary hresult _ => exact ⟨summary, hresult⟩
  | refused _ hanswers _ =>
      rw [hanswers] at haccepted
      exact nomatch haccepted _ (List.mem_append_right _ (List.mem_singleton_self _))
  | stopped hstop _ _ _ =>
      rw [hpolicy] at hstop
      cases hstop

end Ending

section Run

variable {σ : Type} (settings : Settings) (reporter : Reporter σ) (memory : σ) (disk : Disk)

theorem ending_of_walked {ignored : List Glob.Pattern} {kind : NodeKind}
    (hignored : Glob.parseAll settings.ignorePatterns = .ok ignored)
    (hkind : disk.stat settings.root = .ok kind) :
    Ending settings reporter memory (completeTree settings reporter memory disk) := by
  have hsteps (traversal : Traversal σ) (state : RunState σ) (outcome : Outcome) (next : Disk)
      (hsettings : traversal.settings = settings) (hreporter : traversal.reporter = reporter)
      (hstate : Unrefused reporter memory state) (hstep : Step settings state.disk outcome next) :
      Ends (Unrefused reporter memory) (EndedBy settings reporter memory)
        (exec (traversal.settle outcome) (state.afterWork settings outcome next)) := by
    subst hsettings hreporter
    exact ends_settle hstate hstep
  have hstart : Unrefused reporter memory (.initial settings memory disk) :=
    ⟨rfl, fun _ hanswer => absurd hanswer List.not_mem_nil, fun _ => List.not_mem_nil⟩
  rcases completeTree_walked hignored hkind hsteps hstart with
    ⟨e, hresult, hended⟩ | ⟨state, hstate, hfinal, hresult⟩
  · cases hended with
    | refused hanswers hearlier => exact .refused hresult hanswers hearlier
    | @file path cause _ hpolicy hstate hlast =>
        exact .stopped hpolicy hresult hstate ⟨path, cause, .inl ⟨rfl, hlast⟩⟩
    | @directory path cause _ hpolicy hstate =>
        exact .stopped hpolicy hresult hstate ⟨path, cause, .inr rfl⟩
  · have hanswers := hstate.answers_told (.done state.summary)
    rw [← hfinal] at hanswers
    cases hanswer : (reporter.tell (.done state.summary) state.reporter).1 with
    | error cause =>
        rw [hanswer] at hanswers hresult
        exact .refused hresult hanswers hstate.answers
    | ok _ =>
        have haccepted := hstate.answers_told_of_ok hanswer
        rw [hanswer] at hresult
        rw [← hfinal] at haccepted
        exact .reported hresult haccepted

/-- How a run ends, whatever the reporter does.  The first pattern that cannot be read is the
error, whether or not there is a root; else the error is the missing root; in both cases nobody
was told anything and nothing was done.  Otherwise the run ends with an error of the output
exactly when the reporter has answered with it, which it does last.  The only other errors are
those of the file that was taken up last and of a directory, where failures are to stop the
run, and then no summary was reported.  So where failures are passed over and the reporter has
refused nothing, there is a summary. -/
theorem ending_completeTree :
    let run := completeTree settings reporter memory disk
    let answers := reporter.answers memory run.final.callbacks
    (∀ before text after cause, settings.ignorePatterns = before ++ text :: after →
      (∀ earlier ∈ before, ∃ pattern, Glob.Pattern.parse earlier = .ok pattern) →
      Glob.Pattern.parse text = .error cause →
        run.result = .error (.pattern text cause) ∧
          run.final = .initial settings memory disk) ∧
    ((∀ text ∈ settings.ignorePatterns, ∃ pattern, Glob.Pattern.parse text = .ok pattern) →
      (∀ cause, disk.stat settings.root = .error cause →
        run.result = .error (.io settings.root cause) ∧
          run.final = .initial settings memory disk) ∧
      ∀ kind, disk.stat settings.root = .ok kind →
        (∀ cause, run.result = .error (.output cause) ↔ .error cause ∈ answers) ∧
        (∀ answer ∈ answers.dropLast, answer = .ok ()) ∧
        (∀ e, run.result = .error e →
          (∃ cause, e = .output cause) ∨
            settings.onFailure = .stop ∧ (∀ summary, .done summary ∉ run.final.callbacks) ∧
              ∃ path cause, e = .io path cause ∧ run.final.scanned.getLast? = some path ∨
                e = Traversal.listingError path cause) ∧
        (settings.onFailure = .goOn → (∀ answer ∈ answers, answer = .ok ()) →
          ∃ summary, run.result = .ok summary)) := by
  intro run answers
  refine ⟨?_, ?_⟩
  · intro before text after cause hpatterns hbefore htext
    have herror : Glob.parseAll settings.ignorePatterns = .error (.pattern text cause) := by
      rw [hpatterns]
      exact parseAll_of_error hbefore htext
    simp only [run, completeTree_of_parseAll_error herror, and_self]
  · intro hpatterns
    obtain ⟨ignored, hignored⟩ := exists_parseAll hpatterns
    refine ⟨?_, ?_⟩
    · intro cause hroot
      simp only [run, completeTree_of_stat_error hignored hroot, and_self]
    · intro kind hkind
      have hending := ending_of_walked settings reporter memory disk hignored hkind
      exact ⟨hending.output_iff, hending.answers_dropLast, fun _ => hending.error_cases,
        hending.exists_ok⟩

end Run

/-- A reporter that refuses the third thing that it is told, which on the sample is the failure
of the dangling link, ends the run also where failures are passed over.  A pattern that cannot
be read is the error also where there is no root. -/
theorem ending_completeTree_sample :
    let reporter := Reporter.refusing 2 (.os .noSpace)
    let run := completeTree sampleSettings reporter 0 sampleDisk
    let rootless : Settings :=
      { root := Path.ofString "gone", ignorePatterns := ["v", "[", "]"], onFailure := .goOn }
    let unread := completeTree rootless reporter 0 sampleDisk
    run.final.callbacks =
        sampleSummary.fixed.map .fixed ++ sampleSummary.failures.map .failed ∧
      reporter.answers 0 run.final.callbacks = [.ok (), .ok (), .error (.os .noSpace)] ∧
      run.result = .error (.output (.os .noSpace)) ∧
      (sampleDisk.stat rootless.root).isOk = false ∧
      ∃ cause, unread.result = .error (.pattern "[" cause) := by
  intro reporter run rootless unread
  have hpatterns : ∀ text ∈ sampleSettings.ignorePatterns,
      ∃ pattern, Glob.Pattern.parse text = .ok pattern := by
    intro text htext
    rw [List.mem_singleton.1 htext]
    exact ⟨[.char 'v'], eq_ok_of_toOption (by decide +kernel)⟩
  have hcallbacks : run.final.callbacks =
      sampleSummary.fixed.map .fixed ++ sampleSummary.failures.map .failed := by
    simp only [run, completeTree_sample sampleSettings reporter 0 (fun _ _ => rfl) rfl rfl rfl]
    decide +kernel
  have hanswers : reporter.answers 0 run.final.callbacks =
      [.ok (), .ok (), .error (.os .noSpace)] := by
    rw [hcallbacks]
    rfl
  obtain ⟨-, hwalked⟩ := ending_completeTree sampleSettings reporter 0 sampleDisk
  obtain ⟨houtput, -, -, -⟩ := (hwalked hpatterns).2 .dir rfl
  refine ⟨hcallbacks, hanswers, (houtput (.os .noSpace)).2 ?_, by decide +kernel, ?_⟩
  · rw [hanswers]
    simp
  · obtain ⟨hunread, -⟩ := ending_completeTree rootless reporter 0 sampleDisk
    have hnone : (Glob.Pattern.parse "[").toOption = none := by decide +kernel
    cases hparse : Glob.Pattern.parse "[" with
    | ok pattern =>
        rw [hparse] at hnone
        cases hnone
    | error cause => exact ⟨cause, (hunread ["v"] "[" ["]"] cause rfl hpatterns hparse).1⟩

end ExplicitImports
