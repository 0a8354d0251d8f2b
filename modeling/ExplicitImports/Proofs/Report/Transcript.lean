import ExplicitImports.Proofs.Report.Announced
import ExplicitImports.Proofs.Report.Closing
import ExplicitImports.Proofs.Report.Ending
import ExplicitImports.Proofs.Report.SideBySide

/-!
# What a console has shown

A console writes to its streams as the run goes on.  If they take everything, what they have
received in the end can be told from the summary alone.

* `Console.spans`, `ofString_outText`, `ofString_errText` — what a console shows of a callback,
  without its color.
* `Console.remembered_eq_shown` — what both streams have received after some callbacks.
* `fixed_summary_completeTree` — with a reporter that accepts everything, the summary has the
  files that were told as fixed, also if the run has no result.
* `transcript_completeTree` — what the streams have received after a run, and that color makes no
  other difference.
-/

namespace ExplicitImports

open RunM

/-- A stretch of text on a console, in a style or in none. -/
structure Span where
  style : Option Style := none
  text : String

namespace Span

/-- How a console shows it; with color the style is set before the text and reset after it. -/
def shown (color : Bool) (span : Span) : String :=
  match span.style with
  | some style => style.paint color span.text
  | none => span.text

/-- Spans one after another, as bytes. -/
def bytes (color : Bool) (spans : List Span) : Bytes :=
  spans.flatMap fun span => Utf8.ofString (span.shown color)

theorem bytes_append (color : Bool) (spans others : List Span) :
    bytes color (spans ++ others) = bytes color spans ++ bytes color others :=
  List.flatMap_append

theorem ofString_join (color : Bool) (spans : List Span) :
    Utf8.ofString (String.join (spans.map (shown color))) = bytes color spans := by
  induction spans with
  | nil => rfl
  | cons span spans ih =>
      rw [List.map_cons, String.join_cons, Utf8.ofString_append, ih]
      rfl

end Span

/-- The streams after a console has shown these spans on them. -/
def Streams.shown (streams : Streams) (color : Bool) (out err : List Span) : Streams where
  out := { streams.out with received := streams.out.received ++ Span.bytes color out }
  err := { streams.err with received := streams.err.received ++ Span.bytes color err }

namespace Console

variable (console : Console)

/-- What a console shows of a callback: a label and what it is about, or the summary line. -/
def spans : Callback → List Span
  | .fixed file =>
      [{ style := some .boldGreen, text := if console.dryRun then "Would fix:" else "Fixed:" },
        { text := " " ++ file.path.display ++ "\n" }]
  | .failed failure =>
      [{ style := some .boldRed, text := "error:" }, { text := " " ++ failure.error ++ "\n" }]
  | .done summary =>
      if console.quiet then [] else [{ style := some .cyan, text := summary.line ++ "\n" }]

/-- A notice for each of these files. -/
def outSpans (files : List Fix) : List Span :=
  files.flatMap fun file => console.spans (.fixed file)

/-- A notice for each failure of the summary and, unless the console is quiet, its line. -/
def errSpans (summary : Summary) : List Span :=
  (summary.failures.flatMap fun failure => console.spans (.failed failure)) ++
    console.spans (.done summary)

/-- What is put on the output stream for a fixed file are its spans. -/
theorem ofString_outText (file : Fix) :
    Utf8.ofString (console.outText (.fixed file)) =
      Span.bytes console.color (console.spans (.fixed file)) := by
  simp [spans, Span.bytes, Span.shown, outText, fixedNotice]

/-- What is put on the error stream for anything else are its spans. -/
theorem errText_eq_join {callback : Callback} (h : callback.fixed? = none) :
    console.errText callback =
      String.join ((console.spans callback).map (Span.shown console.color)) := by
  cases callback with
  | fixed file => cases h
  | failed failure => simp [spans, Span.shown, errText, failureNotice, String.append_assoc]
  | done summary =>
      cases hquiet : console.quiet with
      | true => simp [spans, errText, closing, hquiet]
      | false => simp [spans, Span.shown, errText, closing, hquiet]

theorem ofString_errText {callback : Callback} (h : callback.fixed? = none) :
    Utf8.ofString (console.errText callback) =
      Span.bytes console.color (console.spans callback) := by
  rw [console.errText_eq_join h, Span.ofString_join]

/-- On the output stream there are the notices of the fixed files. -/
theorem flatMap_outText (callbacks : List Callback) :
    (callbacks.flatMap fun callback => Utf8.ofString (console.outText callback)) =
      Span.bytes console.color (console.outSpans (callbacks.filterMap Callback.fixed?)) := by
  induction callbacks with
  | nil => rfl
  | cons callback callbacks ih =>
      rw [List.flatMap_cons, ih, List.filterMap_cons]
      cases callback with
      | fixed file =>
          rw [console.ofString_outText]
          exact (Span.bytes_append _ _ _).symm
      | failed failure => rfl
      | done summary => rfl

/-- On the error stream there are, before the report of a summary, the notices of the failures. -/
theorem flatMap_errText {callbacks : List Callback} (h : ∀ summary, .done summary ∉ callbacks) :
    (callbacks.flatMap fun callback => Utf8.ofString (console.errText callback)) =
      Span.bytes console.color ((callbacks.filterMap Callback.failed?).flatMap fun failure =>
        console.spans (.failed failure)) := by
  induction callbacks with
  | nil => rfl
  | cons callback callbacks ih =>
      have hrest := ih fun summary hmem => h summary (List.mem_cons_of_mem callback hmem)
      rw [List.flatMap_cons, hrest, List.filterMap_cons]
      cases callback with
      | fixed file => rfl
      | failed failure =>
          rw [console.ofString_errText rfl]
          exact (Span.bytes_append _ _ _).symm
      | done summary => exact absurd List.mem_cons_self (h summary)

/-- Before the report these are the notices of the files and failures that were told. -/
theorem remembered_eq_shown {streams : Streams} (h : streams.Unlimited)
    {callbacks : List Callback} (hdone : ∀ summary, .done summary ∉ callbacks) :
    console.reporter.remembered streams callbacks =
      streams.shown console.color (console.outSpans (callbacks.filterMap Callback.fixed?))
        ((callbacks.filterMap Callback.failed?).flatMap fun failure =>
          console.spans (.failed failure)) := by
  rw [console.remembered_of_unlimited h, console.flatMap_outText, console.flatMap_errText hdone]
  rfl

/-- The report adds the summary line to the error stream. -/
theorem tell_done_shown {streams : Streams} (h : streams.Unlimited) (out err : List Span)
    (summary : Summary) :
    (console.reporter.tell (.done summary) (streams.shown console.color out err)).2 =
      streams.shown console.color out (err ++ console.spans (.done summary)) := by
  have hshown : (streams.shown console.color out err).Unlimited := ⟨h.out, h.err⟩
  have hline : Utf8.ofString (console.errText (.done summary)) =
      Span.bytes console.color (console.spans (.done summary)) := console.ofString_errText rfl
  have hnothing : Utf8.ofString (console.outText (.done summary)) = [] := rfl
  rw [console.tell_of_unlimited hshown, hline, hnothing]
  simp [Streams.shown, Span.bytes_append]

end Console

/-- A reporter that accepts everything as long as its memory is of some kind, and keeps it so,
has accepted all that it was told. -/
theorem Reporter.answers_of_accepts {σ : Type} (reporter : Reporter σ) {accepting : σ → Prop}
    (h : ∀ callback memory, accepting memory →
      (reporter.tell callback memory).1 = .ok () ∧ accepting (reporter.tell callback memory).2)
    {memory : σ} (hstart : accepting memory) (callbacks : List Callback) :
    ∀ answer ∈ reporter.answers memory callbacks, answer = .ok () := by
  induction callbacks generalizing memory with
  | nil => exact fun _ hanswer => absurd hanswer List.not_mem_nil
  | cons callback callbacks ih =>
      obtain ⟨haccepts, hnext⟩ := h callback memory hstart
      intro answer hanswer
      rcases List.mem_cons.1 hanswer with rfl | hlater
      · exact haccepts
      · exact ih hnext answer hlater

/-- If the reporter accepts what it is told, a step that fixes a file adds it to the summary, and
no other step adds one. -/
theorem Traversal.fixed_summary_exec_settle {σ : Type} {traversal : Traversal σ}
    (outcome : Outcome) (state : RunState σ) (disk : Disk)
    (h : ∀ callback, (traversal.reporter.tell callback state.reporter).1 = .ok ()) :
    (exec (traversal.settle outcome)
        (state.afterWork traversal.settings outcome disk)).2.summary.fixed =
      state.summary.fixed ++ outcome.fixed?.toList := by
  let worked := state.afterWork traversal.settings outcome disk
  have hworked : worked.summary.fixed = state.summary.fixed := by
    simp only [worked, RunState.afterWork]
    split <;> rfl
  have hcounted (hok : (exec (traversal.settle outcome) worked).1 = .ok ()) :
      (exec (traversal.settle outcome) worked).2.summary.fixed =
        state.summary.fixed ++ outcome.fixed?.toList := by
    rw [(traversal.summary_exec_settle hok).1, Summary.fixed_count]
  cases traversal.settleCase outcome worked with
  | silent hexec => exact hcounted (by rw [hexec])
  | stopped hpolicy herror hexec =>
      have hnone : outcome.fixed? = none := by
        cases outcome <;> first | rfl | cases herror
      rw [hexec, hworked, hnone]
      exact (List.append_nil _).symm
  | @told callback update noted hcallback hnoted hexec =>
      refine hcounted ?_
      rw [hexec, exec_tell_summarize]
      simp only [worked, RunState.afterWork, h callback]

section Run

variable {σ : Type} {settings : Settings} {reporter : Reporter σ} {memory : σ} {disk : Disk}

/-- With a reporter that accepts everything, the files that were told as fixed are in the summary
of the run, however it ends. -/
theorem fixed_summary_completeTree {accepting : σ → Prop}
    (h : ∀ callback memory, accepting memory →
      (reporter.tell callback memory).1 = .ok () ∧ accepting (reporter.tell callback memory).2)
    (hstart : accepting memory) :
    let final := (completeTree settings reporter memory disk).final
    final.summary.fixed = final.fixed := by
  intro final
  let agrees (state : RunState σ) : Prop :=
    state.summary.fixed = state.fixed ∧ accepting state.reporter
  have hsteps (traversal : Traversal σ) (state : RunState σ) (outcome : Outcome) (next : Disk)
      (hsettings : traversal.settings = settings) (hreporter : traversal.reporter = reporter)
      (hstate : agrees state) (_ : Step settings state.disk outcome next) :
      Ends agrees (fun _ => agrees)
        (exec (traversal.settle outcome) (state.afterWork settings outcome next)) := by
    subst hsettings hreporter
    refine Ends.of_always ⟨?_, ?_⟩
    · rw [traversal.fixed_summary_exec_settle outcome state next fun callback =>
        (h callback _ hstate.2).1, traversal.fixed_exec_settle, hstate.1]
    · exact traversal.remembers_settle outcome _
        (fun callback memory _ hmemory => (h callback memory hmemory).2) hstate.2
  have hagrees : agrees (.initial settings memory disk) := ⟨rfl, hstart⟩
  show (completeTree settings reporter memory disk).final.summary.fixed =
    (completeTree settings reporter memory disk).final.fixed
  rcases completeTree_cases hsteps hagrees with
    ⟨hfinal, -⟩ | ⟨-, -, hfinal⟩ | ⟨state, hstate, hfinal, -⟩
  · rw [hfinal]
    exact hagrees.1
  · exact hfinal.1
  · rw [hfinal, RunState.fixed_told_done]
    exact hstate.1

end Run

section Unlimited

variable (settings : Settings) (console : Console) {streams : Streams} (disk : Disk)
  (hstreams : streams.Unlimited)

include hstreams

/-- A run that returns a summary has shown the fixed files and the failures of it, and its line. -/
theorem shown_of_ok {summary : Summary}
    (h : (completeTree settings console.reporter streams disk).result = .ok summary) :
    (completeTree settings console.reporter streams disk).final.reporter =
      streams.shown console.color (console.outSpans summary.fixed) (console.errSpans summary) := by
  obtain ⟨outcomes, walked, haccount, -, hok⟩ :=
    exists_account settings console.reporter streams disk
  obtain ⟨htrace, hcounted⟩ := hok summary h
  have hcallbacks : (completeTree settings console.reporter streams disk).final.callbacks =
      walked.filterMap Event.called? ++ [.done summary] := by
    rw [RunState.callbacks_eq, htrace, List.filterMap_append]
    rfl
  rw [reporter_completeTree, hcallbacks, Reporter.remembered_concat,
    console.remembered_eq_shown hstreams haccount.done_notMem, console.tell_done_shown hstreams,
    haccount.fixed?_eq, ← hcounted.fixed_eq, haccount.failed?_eq, ← hcounted.failures_eq_filterMap]
  rfl

/-- Where a run ends with an error, no failure and no summary was told. -/
theorem unreported_of_error {e : RunError}
    (h : (completeTree settings console.reporter streams disk).result = .error e) :
    let final := (completeTree settings console.reporter streams disk).final
    final.failed = [] ∧ ∀ summary, .done summary ∉ final.callbacks := by
  intro final
  have hnothing (hfinal : (completeTree settings console.reporter streams disk).final =
      .initial settings streams disk) :
      final.failed = [] ∧ ∀ summary, .done summary ∉ final.callbacks := by
    have hcallbacks : final.callbacks = [] := congrArg RunState.callbacks hfinal
    exact ⟨congrArg (List.filterMap Callback.failed?) hcallbacks, by simp [hcallbacks]⟩
  cases hignored : Glob.parseAll settings.ignorePatterns with
  | error e => exact hnothing (by rw [completeTree_of_parseAll_error hignored])
  | ok ignored =>
      cases hkind : disk.stat settings.root with
      | error cause => exact hnothing (by rw [completeTree_of_stat_error hignored hkind])
      | ok kind =>
          cases ending_of_walked settings console.reporter streams disk hignored hkind with
          | reported hresult hanswers =>
              rw [h] at hresult
              cases hresult
          | refused hresult hanswers hearlier =>
              have hnone := console.reporter.answers_of_accepts
                (fun callback _ hmemory => console.accepts_of_unlimited hmemory callback)
                hstreams (completeTree settings console.reporter streams disk).final.callbacks
              rw [hanswers] at hnone
              exact nomatch hnone _ (List.mem_append_right _ (List.mem_singleton_self _))
          | stopped hpolicy hresult hfinal hentry =>
              exact ⟨failed_eq_nil hpolicy, hfinal.unreported⟩

/-- A run that ends with an error has shown the files that were fixed. -/
theorem shown_of_error {e : RunError}
    (h : (completeTree settings console.reporter streams disk).result = .error e) :
    let final := (completeTree settings console.reporter streams disk).final
    final.reporter = streams.shown console.color (console.outSpans final.fixed) [] := by
  intro final
  obtain ⟨hfailed, hdone⟩ := unreported_of_error settings console disk hstreams h
  rw [reporter_completeTree, console.remembered_eq_shown hstreams hdone]
  unfold RunState.failed at hfailed
  rw [hfailed]
  rfl

end Unlimited

/-- Consoles that differ in their color follow each other, if their streams take everything. -/
theorem Console.follows_of_unlimited (console other : Console) (cause : IoError) :
    console.reporter.Follows other.reporter
      (fun streams others => streams.Unlimited ∧ others.Unlimited) (fun _ _ => False) cause := by
  refine ⟨?_, fun _ _ _ hlost => hlost⟩
  rintro callback streams others ⟨hstreams, hothers⟩
  obtain ⟨hanswer, hnext⟩ := console.accepts_of_unlimited hstreams callback
  obtain ⟨hanswer', hnext'⟩ := other.accepts_of_unlimited hothers callback
  exact .inl ⟨hanswer'.trans hanswer.symm, hnext, hnext'⟩

/-- What a console has shown after a run, on streams that take everything.  If the run returns a
summary, the output stream has got a notice for each fixed file of the summary, in order, and the
error stream one for each of its failures and then, unless the console is quiet, the line of the
same summary.  A run that ends with an error has shown the notices of the files that were fixed
until then, which are those written if the run is not dry, and nothing on the error stream.
Both runs do the same with color and without; what they show differs in the styles that labels
and summary lines are painted in. -/
theorem transcript_completeTree (settings : Settings) (console : Console) (streams : Streams)
    (disk : Disk) (hstreams : streams.Unlimited) :
    let run (color : Bool) := completeTree settings { console with color }.reporter streams disk
    (∀ color summary, (run color).result = .ok summary →
      (run color).final.reporter =
        streams.shown color (console.outSpans summary.fixed) (console.errSpans summary)) ∧
    (∀ color e, (run color).result = .error e →
      let final := (run color).final
      final.reporter = streams.shown color (console.outSpans final.summary.fixed) [] ∧
        final.fixed = final.summary.fixed ∧
        (settings.dryRun = false → final.written = final.summary.fixed.map Fix.path)) ∧
    (run true).result = (run false).result ∧
      (run true).final.trace = (run false).final.trace ∧
      (run true).final.summary = (run false).final.summary ∧
      (run true).final.disk = (run false).final.disk := by
  intro run
  refine ⟨?_, ?_, ?_⟩
  · intro color summary h
    exact shown_of_ok settings { console with color } disk hstreams h
  · intro color e h final
    have hfixed : final.summary.fixed = final.fixed :=
      fixed_summary_completeTree
        (fun callback _ hmemory =>
          Console.accepts_of_unlimited { console with color } hmemory callback) hstreams
    refine ⟨?_, hfixed.symm, ?_⟩
    · rw [hfixed]
      exact shown_of_error settings { console with color } disk hstreams h
    · intro hdry
      have hannounced : Announces final.trace := announces_completeTree _ _ _ _ hdry
      rw [hfixed, RunState.fixed, RunState.callbacks_eq, hannounced.fixed_eq_written]
      rfl
  · let plain : Console := { console with color := false }
    let painted : Console := { console with color := true }
    rcases completeTree_follows (plain.follows_of_unlimited painted Stream.limitReached)
        plain.reporter_leavesDisk painted.reporter_leavesDisk ⟨hstreams, hstreams⟩ settings disk with
      ⟨hresult, htwins⟩ | ⟨e, -, hcut⟩
    · exact ⟨hresult, htwins.trace, htwins.summary, htwins.disk⟩
    · exact hcut.reporter.elim

/-- The sample on a console with color and without: two files are fixed, and the dangling link
fails. -/
theorem transcript_completeTree_sample :
    let run (color : Bool) :=
      completeTree sampleSettings (Console.reporter { color }) {} sampleDisk
    (run false).final.reporter.out.received =
        Utf8.ofString "Fixed: r/a/z.ts\nFixed: r/a.ts\n" ∧
      (run false).final.reporter.err.received =
        Utf8.ofString ("error: r/c.ts: No such file or directory (os error 2)\n" ++
          "2 files fixed, 2 imports rewritten (4 scanned), 1 failure\n") ∧
      (run true).final.reporter.out.received =
        Utf8.ofString ("\x1b[0m\x1b[1m\x1b[32mFixed:\x1b[0m r/a/z.ts\n" ++
          "\x1b[0m\x1b[1m\x1b[32mFixed:\x1b[0m r/a.ts\n") := by
  intro run
  obtain ⟨hok, -, hsame, -⟩ := transcript_completeTree sampleSettings {} {} sampleDisk ⟨rfl, rfl⟩
  have hresult : (run false).result = .ok sampleSummary := by
    apply eq_ok_of_toOption
    show (completeTree sampleSettings (Console.reporter {}) {} sampleDisk).result.toOption =
      some sampleSummary
    rw [completeTree_sample sampleSettings (Console.reporter {}) {} (Console.reporter_leavesDisk {})
      rfl rfl rfl]
    decide +kernel
  have hplain := hok false sampleSummary hresult
  have hpainted := hok true sampleSummary (hsame.trans hresult)
  rw [hplain, hpainted]
  decide +kernel

end ExplicitImports
