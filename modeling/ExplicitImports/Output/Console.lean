import ExplicitImports.Output.Reporter
import ExplicitImports.Output.Stream

/-!
# Reports for people

A notice for each fixed file goes to the output stream, so that it holds a plain
list of paths; a notice for each failure and, unless the console is quiet, the
summary line at the end go to the error stream.  With color, the label of a
notice and the summary line stand between escape sequences.
-/

namespace ExplicitImports

/-- The escape sequences of a terminal. -/
inductive Style where
  | boldGreen
  | boldRed
  | cyan
  deriving DecidableEq, Repr

namespace Style

/-- End every style. -/
def reset : String := "\x1b[0m"

/-- Start a style from a clean state. -/
def start : Style → String
  | .boldGreen => reset ++ "\x1b[1m" ++ "\x1b[32m"
  | .boldRed => reset ++ "\x1b[1m" ++ "\x1b[31m"
  | .cyan => reset ++ "\x1b[36m"

/-- A text in a style, or as it is where there is no color. -/
def paint (color : Bool) (style : Style) (text : String) : String :=
  if color then style.start ++ text ++ reset else text

@[simp] theorem paint_false (style : Style) (text : String) : paint false style text = text := rfl

end Style

/-- How a console shows things. -/
structure Console where
  color : Bool := false
  quiet : Bool := false
  dryRun : Bool := false
  deriving DecidableEq, Repr

namespace Console

/-- The notice for a fixed file. -/
def fixedNotice (console : Console) (file : Fix) : String :=
  Style.boldGreen.paint console.color (if console.dryRun then "Would fix:" else "Fixed:")
    ++ " " ++ file.path.display ++ "\n"

/-- The notice for a failure. -/
def failureNotice (console : Console) (failure : Failure) : String :=
  Style.boldRed.paint console.color "error:" ++ " " ++ failure.error ++ "\n"

/-- The end of the report. -/
def closing (console : Console) (summary : Summary) : String :=
  if console.quiet then ""
  else Style.cyan.paint console.color (summary.line ++ "\n")

/-- What a callback puts on the output stream. -/
def outText (console : Console) : Callback → String
  | .fixed file => console.fixedNotice file
  | .failed _ | .done _ => ""

/-- What a callback puts on the error stream. -/
def errText (console : Console) : Callback → String
  | .fixed _ => ""
  | .failed failure => console.failureNotice failure
  | .done summary => console.closing summary

/-- The reporter that prints to two streams. -/
def reporter (console : Console) : Reporter Streams where
  tell callback streams :=
    match callback with
    | .fixed _ =>
        let (result, out) := streams.out.write (Utf8.ofString (console.outText callback))
        (result, { streams with out })
    | .failed _ | .done _ =>
        let (result, err) := streams.err.write (Utf8.ofString (console.errText callback))
        (result, { streams with err })

theorem reporter_leavesDisk (console : Console) : console.reporter.LeavesDisk :=
  fun _ _ => rfl

end Console

end ExplicitImports
