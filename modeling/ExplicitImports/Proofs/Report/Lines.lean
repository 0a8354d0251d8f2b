import ExplicitImports.Proofs.Report.Outcome

/-!
# Log lines

What stands in a log, as a reader of it sees it: lines with a level, a message and named values.
The lines of a step are told by its outcome alone.

* `Log.Record.said` — the line that a record is, and `printed_eq` — how it is printed.
* `Log.Level.upTo` — the levels of the lines that are shown where all up to a level are.
* `Outcome.lines` — the lines of a step; `said_events` — they are what is noted down in it.
* `filter_scanning_lines`, `filter_rewrote_lines`, `filter_skipping_lines` — the messages of lines
  tell the files that are taken up, the fixes and the errors that are passed over.
-/

namespace ExplicitImports

namespace Log

/-- A line of a log. -/
structure Line where
  level : Level
  message : String
  fields : List (String × String)
  deriving DecidableEq

namespace Level

/-- The levels that are shown where all up to this one are, from the gravest on. -/
def upTo : Level → List Level
  | error => [error]
  | warn => [error, warn]
  | info => [error, warn, info]
  | debug => [error, warn, info, debug]
  | trace => [error, warn, info, debug, trace]

theorem shownAt_iff (level threshold : Level) :
    level.shownAt threshold = true ↔ level ∈ threshold.upTo := by
  cases level <;> cases threshold <;> decide

/-- The color of a level and its name, which takes up five columns. -/
def inked : Level → String × String
  | error => ("\x1b[31m", "ERROR")
  | warn => ("\x1b[33m", " WARN")
  | info => ("\x1b[32m", " INFO")
  | debug => ("\x1b[34m", "DEBUG")
  | trace => ("\x1b[35m", "TRACE")

end Level

namespace Line

/-- A file is taken up. -/
def scanning (path : Path) : Line :=
  { level := .debug, message := "scanning", fields := [("path", path.display)] }

/-- A failure is passed over. -/
def skipping (error : String) : Line :=
  { level := .warn, message := "skipping after error", fields := [("error", error)] }

/-- A file was written, or would have been if the run were not dry. -/
def rewrote (dryRun : Bool) (file : Fix) : Line :=
  { level := if dryRun then .debug else .info
    message := if dryRun then "dry run, not writing" else "rewrote imports"
    fields := [("path", file.path.display), ("imports", toString file.imports)] }

/-- A text between an escape sequence and the one that ends it, or as it is without color. -/
def inked (color : Bool) (start text : String) : String :=
  if color then start ++ text ++ "\x1b[0m" else text

/-- The line as it is printed at some time.  With color the time is dim, the level has its color,
and the values have their names in italics. -/
def printed (color : Bool) (time : String) (line : Line) : String :=
  inked color "\x1b[2m" time ++ " " ++ inked color line.level.inked.1 line.level.inked.2 ++ " " ++
    line.message ++
    String.join (line.fields.map fun (name, value) =>
      " " ++ inked color "\x1b[3m" name ++ inked color "\x1b[2m" "=" ++ value) ++ "\n"

end Line

namespace Record

/-- The line that a record is. -/
def said (record : Record) : Line where
  level := record.level
  message := record.message
  fields := record.fields

/-- No record is below the debug level. -/
theorem level_mem_upTo_debug (record : Record) : record.said.level ∈ Level.debug.upTo := by
  cases record <;> simp [said, Record.level, Level.upTo]

/-- It is printed as that line. -/
theorem printed_eq (record : Record) (color : Bool) (time : String) :
    record.printed color time = record.said.printed color time := by
  have hcolor : record.level.color = record.level.inked.1 := by
    cases record.level <;> rfl
  have hlabel : record.level.label = record.level.inked.2 := by
    cases record.level <;> rfl
  -- The escape sequences that are written next to each other belong to different stretches.
  have hname (text : String) : " \x1b[3m" ++ text = " " ++ ("\x1b[3m" ++ text) := by
    rw [← String.append_assoc]
    rfl
  have hequals (text : String) :
      "\x1b[0m\x1b[2m=\x1b[0m" ++ text =
        "\x1b[0m" ++ ("\x1b[2m" ++ ("=" ++ ("\x1b[0m" ++ text))) := by
    simp only [← String.append_assoc]
    rfl
  have hspace (text : String) : "\x1b[0m " ++ text = "\x1b[0m" ++ (" " ++ text) := by
    rw [← String.append_assoc]
    rfl
  cases color with
  | false =>
      simp [Record.printed, line, Line.printed, Line.inked, said, hlabel, String.append_assoc]
  | true =>
      simp [Record.printed, coloredLine, Line.printed, Line.inked, said, hlabel, hcolor, hname,
        hequals, hspace, String.append_assoc]

end Record

end Log

/-- The log record that an event is. -/
def Event.record? : Event → Option Log.Record
  | .file (.log record) => some record
  | _ => none

theorem RunState.log_eq {σ : Type} (state : RunState σ) :
    state.log = state.trace.filterMap Event.record? := by
  unfold log
  congr 1

namespace Outcome

open Log.Line (scanning skipping rewrote)

variable (settings : Settings) (outcome : Outcome)

/-- The lines of a step.  A file that is taken up has two, of which the second tells what came of
it. -/
def lines : Outcome → List Log.Line
  | ignored path =>
      [{ level := .debug, message := "ignored by pattern", fields := [("path", path.display)] }]
  | unlisted path cause => [skipping (Traversal.listingError path cause).message]
  | unchanged path =>
      [scanning path,
        { level := .debug, message := "no imports to fix", fields := [("path", path.display)] }]
  | fixed file => [scanning file.path, rewrote settings.dryRun file]
  | broken path _ error => [scanning path, skipping error.message]

variable {settings outcome} in
/-- A step that comes to an error without stopping the run goes on. -/
theorem onFailure_eq_goOn {error : RunError} (herror : outcome.error? = some error)
    (h : settings.onFailure = .stop → outcome.error? = none) : settings.onFailure = .goOn := by
  cases hpolicy : settings.onFailure with
  | goOn => rfl
  | stop =>
      rw [h hpolicy] at herror
      cases herror

/-- These are what is noted down in a step, if it does not stop the run. -/
theorem said_events (h : settings.onFailure = .stop → outcome.error? = none) :
    ((outcome.events settings).filterMap Event.record?).map Log.Record.said =
      outcome.lines settings := by
  cases outcome with
  | ignored path => rfl
  | unchanged path => rfl
  | unlisted path cause =>
      simp only [events, work, notice, onFailure_eq_goOn rfl h]
      rfl
  | fixed file =>
      simp only [events, work, notice, lines]
      cases settings.dryRun <;> rfl
  | broken path tried error =>
      simp only [events, work, notice, onFailure_eq_goOn rfl h]
      cases tried <;> rfl

/-- So it is with steps one after another. -/
theorem said_flatMap_events {outcomes : List Outcome}
    (h : settings.onFailure = .stop → ∀ outcome ∈ outcomes, outcome.error? = none) :
    ((outcomes.flatMap (events settings)).filterMap Event.record?).map Log.Record.said =
      outcomes.flatMap (lines settings) := by
  rw [List.filterMap_flatMap, List.map_flatMap]
  apply List.flatMap_congr
  intro outcome houtcome
  exact outcome.said_events settings fun hpolicy => h hpolicy outcome houtcome

/-- A file that is taken up is noted down once. -/
theorem filter_scanning_lines :
    (outcome.lines settings).filter (·.message = "scanning") =
      outcome.scanned?.toList.map .scanning := by
  cases outcome with
  | ignored path => rfl
  | unlisted path cause => rfl
  | unchanged path => rfl
  | fixed file => cases hdry : settings.dryRun <;> simp [lines, hdry, scanned?, scanning, rewrote]
  | broken path tried error => rfl

/-- A fix is noted down as one, with its count. -/
theorem filter_rewrote_lines :
    (outcome.lines settings).filter
        (·.message ∈ ["rewrote imports", "dry run, not writing"]) =
      outcome.fixed?.toList.map (.rewrote settings.dryRun) := by
  cases outcome with
  | ignored path => rfl
  | unlisted path cause => rfl
  | unchanged path => rfl
  | fixed file => cases hdry : settings.dryRun <;> simp [lines, hdry, fixed?, scanning, rewrote]
  | broken path tried error => rfl

/-- A failure is noted down with its text. -/
theorem filter_skipping_lines :
    (outcome.lines settings).filter (·.message = "skipping after error") =
      outcome.error?.toList.map fun error => .skipping error.message := by
  cases outcome with
  | ignored path => rfl
  | unlisted path cause => rfl
  | unchanged path => rfl
  | fixed file => cases hdry : settings.dryRun <;> simp [lines, hdry, error?, scanning, rewrote]
  | broken path tried error => rfl

end Outcome

end ExplicitImports
