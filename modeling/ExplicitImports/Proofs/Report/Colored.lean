import ExplicitImports.Cli.Command
import ExplicitImports.Proofs.Report.Transcript

/-!
# When notices are colored

Two rules decide about the color of notices: that of the command, which goes by its `--color` and
by the environment, and that of the streams, which let escape sequences through only where the
environment names a terminal that takes them.  So even a command that is to use color always may
print none.

* `Cli.Arguments.transcript` — what is printed by a run with its notices in color or without.
* `Cli.Arguments.color_console_iff` — when both rules allow color.
* `colored_run` — every command that starts a run with a console prints the transcript of the run
  in the color that both rules allow.
* `not_forall_colored` — a command that is to use color always, where the terminal is not named.
-/

namespace ExplicitImports

namespace Cli

/-- The terminal is named, is one that takes escape sequences, and color is not declined. -/
structure Environment.Escapable (environment : Environment) : Prop where
  noColor : environment.noColor = none
  term : ∃ term, environment.term = some term ∧ term ≠ "dumb"

theorem Environment.takesEscapes_iff (environment : Environment) :
    environment.takesEscapes = true ↔ environment.Escapable := by
  unfold takesEscapes
  constructor
  · intro h
    simp only [Bool.and_eq_true, Option.isNone_iff_eq_none, decide_eq_true_eq] at h
    obtain ⟨⟨hnone, hsome⟩, hdumb⟩ := h
    obtain ⟨term, hterm⟩ := Option.isSome_iff_exists.1 hsome
    refine ⟨hnone, term, hterm, ?_⟩
    rintro rfl
    exact hdumb hterm
  · rintro ⟨hnone, term, hterm, hdumb⟩
    simp [hnone, hterm, hdumb]

namespace Arguments

variable (arguments : Arguments) (environment : Environment) (time : String)

/-- What an event puts on the error stream: a log record that is shown is a line, and a notice is
shown in color or without. -/
def errShown (color : Bool) : Event → String
  | .file (.log record) =>
      if (arguments.logFilter environment).shows record then
        record.printed (arguments.wantsColor environment) time
      else ""
  | .file _ | .called (.fixed _) => ""
  | .called callback =>
      String.join (((arguments.console environment).spans callback).map (Span.shown color))

/-- What a run prints on its two streams, with its notices in color or without. -/
def transcript (color : Bool) (run : TreeRun Streams) : Bytes × String :=
  let notices := (arguments.console environment).outSpans run.final.fixed
  let lines := String.join (run.final.trace.map (arguments.errShown environment time color))
  (Span.bytes color notices,
    match run.result with
    | .ok _ => lines
    | .error error => lines ++ Help.name ++ ": " ++ error.message ++ "\n")

/-- When notices are colored: only where the streams let escape sequences through. -/
theorem color_console_iff :
    (arguments.console environment).color = true ↔
      environment.wantsColor (arguments.color.getD .auto) = true ∧ environment.Escapable := by
  rw [← environment.takesEscapes_iff, ← Bool.and_eq_true]
  rfl

variable {arguments} (hjson : arguments.json = false)

include hjson

theorem errText_eq_errShown (event : Event) :
    arguments.errText environment time event =
      arguments.errShown environment time (arguments.console environment).color event := by
  cases event with
  | file event => cases event <;> rfl
  | called callback =>
      unfold errText
      simp only [hjson, Bool.false_eq_true, if_false]
      cases callback with
      | fixed file => rfl
      | failed failure => exact Console.errText_eq_join _ rfl
      | done summary => exact Console.errText_eq_join _ rfl

/-- A run with a console prints its transcript, in the color of the console. -/
theorem run_eq_transcript (disk : Disk) :
    let console := arguments.console environment
    let outcome := arguments.run environment time disk
    (outcome.stdout, outcome.stderr) = arguments.transcript environment time console.color
      (completeTree arguments.settings console.reporter {} disk) := by
  intro console outcome
  let run := completeTree arguments.settings console.reporter {} disk
  have hrun : completeTree arguments.settings (arguments.reporter environment) {} disk = run := by
    unfold reporter
    rw [hjson]
    rfl
  -- The streams of a command accept everything, so all that was told is on them.
  have hout : run.final.reporter.out.received =
      Span.bytes console.color (console.outSpans run.final.fixed) := by
    show (completeTree arguments.settings console.reporter {} disk).final.reporter.out.received = _
    rw [reporter_completeTree, console.remembered_of_unlimited ⟨rfl, rfl⟩]
    exact console.flatMap_outText _
  have herr : run.final.trace.map (arguments.errText environment time) =
      run.final.trace.map (arguments.errShown environment time console.color) := by
    apply List.map_congr_left
    intro event _
    exact errText_eq_errShown environment time hjson event
  refine Prod.ext ?_ ?_
  · show (arguments.run environment time disk).stdout = _
    simp only [Arguments.run, hrun]
    exact hout
  · show (arguments.run environment time disk).stderr = _
    simp only [Arguments.run, hrun, herr]
    unfold transcript
    rfl

end Arguments

end Cli

/-- When the notices of a command that starts a run with a console are colored, and what it prints
then.  It prints the transcript of its run, in color or without.  Asked to use color always it
does so if and only if the terminal is one that takes escape sequences and color is not declined;
asked never to, it does not; and left to itself it also has to be forced to, or to print to a
terminal. -/
theorem colored_run (line : List Bytes) (arguments : Cli.Arguments)
    (hline : Cli.Arguments.parse line = .ok arguments) (hjson : arguments.json = false)
    (environment : Cli.Environment) (time : String) (disk : Disk) :
    let outcome := Cli.run line environment time disk
    let run := completeTree arguments.settings (arguments.console environment).reporter {} disk
    ∃ color : Bool,
      (outcome.stdout, outcome.stderr) = arguments.transcript environment time color run ∧
      (arguments.color = some .always → (color = true ↔ environment.Escapable)) ∧
      (arguments.color = some .never → color = false) ∧
      (arguments.color.getD .auto = .auto →
        (color = true ↔ environment.Escapable ∧
          (environment.forceColor = true ∨ environment.outputIsTerminal = true))) := by
  intro outcome run
  have hcolor := arguments.color_console_iff environment
  have houtcome : outcome = arguments.run environment time disk := by
    simp only [outcome, Cli.run, hline]
  refine ⟨(arguments.console environment).color, ?_, ?_, ?_, ?_⟩
  · rw [houtcome]
    exact Cli.Arguments.run_eq_transcript environment time hjson disk
  · intro halways
    rw [hcolor, halways]
    exact and_iff_right rfl
  · intro hnever
    rw [← Bool.not_eq_true, hcolor, hnever]
    exact fun hboth => Bool.false_ne_true hboth.1
  · intro hauto
    rw [hcolor, hauto, and_comm]
    refine and_congr_right fun hescapable => ?_
    obtain ⟨hnone, term, hterm, hdumb⟩ := hescapable
    simp [Cli.Environment.wantsColor, hnone, hterm, hdumb]

/-- A directory `api` with one file in it that has an import to complete. -/
def apiDisk : Disk where
  nodes :=
    [((Path.ofString "api").names, .dir),
      ((Path.ofString "api/a.ts").names, .file (Utf8.ofString "import a from './a';\n"))]

/-- Where a terminal is named that takes escape sequences, notices are colored on demand, also if
they are not printed to it. -/
theorem colored_run_named :
    let outcome := Cli.run (["--color", "always"].map Utf8.ofString) { term := some "xterm" } ""
      apiDisk
    outcome.stdout = Utf8.ofString "\x1b[0m\x1b[1m\x1b[32mFixed:\x1b[0m api/a.ts\n" ∧
      outcome.stderr =
        "\x1b[0m\x1b[36m1 file fixed, 1 import rewritten (1 scanned)\n\x1b[0m" := by
  intro outcome
  let environment : Cli.Environment := { term := some "xterm" }
  let arguments : Cli.Arguments := { color := some .always }
  have hline : Cli.Arguments.parse (["--color", "always"].map Utf8.ofString) = .ok arguments :=
    eq_ok_of_toOption (by decide +kernel)
  obtain ⟨color, hshown, halways, -⟩ := colored_run _ arguments hline rfl environment "" apiDisk
  have hcolor : color = true := (halways rfl).2 ⟨rfl, "xterm", rfl, by decide⟩
  subst hcolor
  obtain ⟨hout, herr⟩ := Prod.mk.inj hshown
  exact ⟨hout.trans (by decide +kernel), herr.trans (by decide +kernel)⟩

/-- So it is not true for every command that is to use color always that it prints the colored
transcript: without the name of a terminal it prints none. -/
theorem not_forall_colored :
    ¬∀ (line : List Bytes) (arguments : Cli.Arguments) (environment : Cli.Environment)
      (time : String) (disk : Disk), Cli.Arguments.parse line = .ok arguments →
        arguments.json = false → arguments.color = some .always →
          let outcome := Cli.run line environment time disk
          let reporter := (arguments.console environment).reporter
          let run := completeTree arguments.settings reporter {} disk
          (outcome.stdout, outcome.stderr) = arguments.transcript environment time true run := by
  intro h
  let arguments : Cli.Arguments := { color := some .always }
  have hline : Cli.Arguments.parse (["--color", "always"].map Utf8.ofString) = .ok arguments :=
    eq_ok_of_toOption (by decide +kernel)
  have hall := h _ arguments {} "" apiDisk hline rfl rfl
  have hplain : (Cli.run (["--color", "always"].map Utf8.ofString) {} "" apiDisk).stdout =
      Utf8.ofString "Fixed: api/a.ts\n" := by
    decide +kernel
  let run := completeTree arguments.settings (arguments.console {}).reporter {} apiDisk
  have hpainted : (arguments.transcript {} "" true run).1 =
      Utf8.ofString "\x1b[0m\x1b[1m\x1b[32mFixed:\x1b[0m api/a.ts\n" := by
    decide +kernel
  have hsame := (Prod.mk.inj hall).1
  rw [hplain] at hsame
  have hdiffer : Utf8.ofString "Fixed: api/a.ts\n" ≠
      Utf8.ofString "\x1b[0m\x1b[1m\x1b[32mFixed:\x1b[0m api/a.ts\n" := by
    decide +kernel
  exact hdiffer (hsame.trans hpainted)

end ExplicitImports
