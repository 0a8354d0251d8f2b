import ExplicitImports.Cli.Arguments
import ExplicitImports.Cli.Color
import ExplicitImports.Cli.Help
import ExplicitImports.Log.Filter
import ExplicitImports.Output.Console
import ExplicitImports.Output.Document
import ExplicitImports.Run.Tree

/-!
# The command

A command line, an environment and a disk decide what is printed, how the command
exits and what the disk holds then.  Log lines and notices come on the error
stream in the order in which they arise.
-/

namespace ExplicitImports.Cli

/-- How a command ended. -/
structure Outcome where
  code : Nat
  stdout : Bytes := []
  stderr : String := ""
  disk : Disk

namespace Outcome

/-- A command that printed something and did nothing. -/
def printed (disk : Disk) (text : String) : Outcome :=
  { code := 0, stdout := Utf8.ofString text, disk }

/-- A command that was not understood. -/
def refused (disk : Disk) (text : String) : Outcome :=
  { code := 2, stderr := text ++ "\n", disk }

end Outcome

namespace Arguments

/-- The log level for a number of `-v` flags. -/
def logLevel (arguments : Arguments) : Log.Level :=
  match arguments.verbosity with
  | 0 => .warn
  | 1 => .info
  | _ => .debug

/-- Which log records are shown: what the environment asks for, if it can be read,
or else the level of the flags. -/
def logFilter (arguments : Arguments) (environment : Environment) : Log.Filter :=
  (environment.logFilter.bind Log.Filter.parse?).getD (.upTo arguments.logLevel)

def wantsColor (arguments : Arguments) (environment : Environment) : Bool :=
  environment.wantsColor (arguments.color.getD .auto)

/-- The console that notices are printed to. -/
def console (arguments : Arguments) (environment : Environment) : Console where
  color := arguments.wantsColor environment && environment.takesEscapes
  quiet := arguments.quiet
  dryRun := arguments.dryRun

/-- The reporter of a run. -/
def reporter (arguments : Arguments) (environment : Environment) : Reporter Streams :=
  if arguments.json then Document.reporter else (arguments.console environment).reporter

/-- What an event puts on the error stream. -/
def errText (arguments : Arguments) (environment : Environment) (time : String) :
    Event → String
  | .file (.log record) =>
      if (arguments.logFilter environment).shows record then
        record.printed (arguments.wantsColor environment) time
      else ""
  | .called callback =>
      if arguments.json then "" else (arguments.console environment).errText callback
  | .file _ => ""

/-- How the command exits after a run: it fails if the run does, or if it passed over a
failure. -/
def exitCode : Except RunError Summary → Nat
  | .ok summary => if summary.anyFailed then 1 else 0
  | .error _ => 1

/-- Run over the tree. -/
def run (arguments : Arguments) (environment : Environment) (time : String) (disk : Disk) :
    Outcome :=
  let run := completeTree arguments.settings (arguments.reporter environment) {} disk
  let log := String.join (run.final.trace.map (arguments.errText environment time))
  { code := exitCode run.result
    stdout := run.final.reporter.out.received
    stderr := match run.result with
      | .ok _ => log
      | .error error => log ++ Help.name ++ ": " ++ error.message ++ "\n"
    disk := run.final.disk }

end Arguments

/-- Run a command line; `time` is what log lines give as the time. -/
def run (arguments : List Bytes) (environment : Environment) (time : String) (disk : Disk) :
    Outcome :=
  let shown (message : Message) : String := message.shown environment.colorsMessages
  match Arguments.parse arguments with
  | .ok arguments => arguments.run environment time disk
  | .error .shortHelp => .printed disk (shown Help.short)
  | .error .longHelp => .printed disk (shown Help.long)
  | .error .version => .printed disk (shown Help.version)
  | .error (.error error) => .refused disk (shown error.message)

end ExplicitImports.Cli
