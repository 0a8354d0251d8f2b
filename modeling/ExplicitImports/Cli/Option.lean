import ExplicitImports.Text.Utf8

/-!
# Options of the command line

The options, how they are written and what the help says about them.
-/

namespace ExplicitImports.Cli

/-- When to use color. -/
inductive ColorUse where
  | auto
  | always
  | never
  deriving DecidableEq, Repr

namespace ColorUse

def all : List ColorUse := [.auto, .always, .never]

def name : ColorUse → String
  | .auto => "auto"
  | .always => "always"
  | .never => "never"

def description : ColorUse → String
  | .auto => "Auto-detect based on terminal and environment"
  | .always => "Always use colors"
  | .never => "Never use colors"

/-- The mode that a name stands for. -/
def ofName? (text : String) : Option ColorUse :=
  all.find? (·.name = text)

theorem ofName?_name (mode : ColorUse) : ofName? mode.name = some mode := by
  cases mode <;> decide

end ColorUse

inductive Flag where
  | dryRun
  | keepGoing
  | json
  | quiet
  /-- The only flag that may be repeated. -/
  | verbose
  deriving DecidableEq, Repr

/-- Options that take a value. -/
inductive Setting where
  | suffix
  | extension
  | excludePrefix
  | ignore
  | color
  deriving DecidableEq, Repr

inductive Opt where
  | flag (flag : Flag)
  | setting (setting : Setting)
  | help
  | version
  deriving DecidableEq, Repr

namespace Opt

/-- Every option, in the order of the help. -/
def all : List Opt :=
  [.setting .suffix, .setting .extension, .setting .excludePrefix, .setting .ignore,
    .flag .dryRun, .flag .keepGoing, .flag .json, .setting .color, .flag .quiet,
    .flag .verbose, .help, .version]

def short? : Opt → Option Char
  | .setting .suffix => some 's'
  | .setting .extension => some 'e'
  | .setting .excludePrefix => some 'x'
  | .setting .ignore => some 'I'
  | .setting .color => none
  | .flag .dryRun => some 'n'
  | .flag .keepGoing => some 'k'
  | .flag .json => none
  | .flag .quiet => some 'q'
  | .flag .verbose => some 'v'
  | .help => some 'h'
  | .version => some 'V'

def long : Opt → String
  | .setting .suffix => "suffix"
  | .setting .extension => "extension"
  | .setting .excludePrefix => "exclude-prefix"
  | .setting .ignore => "ignore"
  | .setting .color => "color"
  | .flag .dryRun => "dry-run"
  | .flag .keepGoing => "keep-going"
  | .flag .json => "json"
  | .flag .quiet => "quiet"
  | .flag .verbose => "verbose"
  | .help => "help"
  | .version => "version"

/-- What follows the long form when an option is named. -/
def tail : Opt → String
  | .setting .suffix => " <SUFFIX>"
  | .setting .extension => " <EXTENSION>"
  | .setting .excludePrefix => " <PREFIX>"
  | .setting .ignore => " <PATTERN>"
  | .setting .color => " <WHEN>"
  | .flag .verbose => "..."
  | _ => ""

/-- An option as messages name it. -/
def display (opt : Opt) : String :=
  "--" ++ opt.long ++ opt.tail

def ofLong? (name : String) : Option Opt :=
  all.find? (·.long = name)

def ofShort? (c : Char) : Option Opt :=
  all.find? (·.short? = some c)

def description : Opt → String
  | .setting .suffix => "File name suffix to scan (can be used multiple times)"
  | .setting .extension => "Extension appended to relative import paths"
  | .setting .excludePrefix =>
      "Import path prefix that is never rewritten (can be used multiple times)"
  | .setting .ignore =>
      "Skip files and directories whose name matches pattern (can be used multiple times)"
  | .setting .color => "Control color output: auto, always, never"
  | .flag .dryRun => "Show which files would be fixed without writing them"
  | .flag .keepGoing =>
      "Keep going after a file cannot be read or written, exiting non-zero at the end"
  | .flag .json => "Print a JSON summary instead of one line per fixed file"
  | .flag .quiet => "Do not print the summary line"
  | .flag .verbose =>
      "Increase log verbosity (-v info, -vv debug); RUST_LOG overrides"
  | .help => "Print help"
  | .version => "Print version"

/-- The value an option has when it is not given, if the help tells it. -/
def default? : Opt → Option String
  | .setting .suffix => some ".ts"
  | .setting .extension => some ".js"
  | .setting .excludePrefix => some "./node_modules"
  | .setting .color => some "auto"
  | _ => none

theorem ofLong?_long (opt : Opt) : ofLong? opt.long = some opt := by
  rcases opt with flag | setting | _ | _
  · cases flag <;> decide
  · cases setting <;> decide
  · decide
  · decide

end Opt

end ExplicitImports.Cli
