import ExplicitImports.Disk.Path

/-!
# Log records

What a run notes down for those who follow it, by cause.  Each record has a
severity, a target that filters go by, a message and named values.
-/

namespace ExplicitImports.Log

/-- Severities, from the gravest on. -/
inductive Level where
  | error
  | warn
  | info
  | debug
  | trace
  deriving DecidableEq, Repr

namespace Level

def rank : Level → Nat
  | .error => 1
  | .warn => 2
  | .info => 3
  | .debug => 4
  | .trace => 5

/-- The name of a level, aligned to five columns. -/
def label : Level → String
  | .error => "ERROR"
  | .warn => " WARN"
  | .info => " INFO"
  | .debug => "DEBUG"
  | .trace => "TRACE"

/-- Is this level shown where all up to another one are? -/
def shownAt (level threshold : Level) : Bool :=
  level.rank ≤ threshold.rank

/-- The escape sequence of the color that a level is shown in. -/
def color : Level → String
  | .error => "\x1b[31m"
  | .warn => "\x1b[33m"
  | .info => "\x1b[32m"
  | .debug => "\x1b[34m"
  | .trace => "\x1b[35m"

end Level

/-- What is noted down. -/
inductive Record where
  /-- A file is taken up. -/
  | scanning (path : Path)
  /-- An entry is left out for its name. -/
  | ignored (path : Path)
  /-- A failure is passed over. -/
  | skipping (error : String)
  /-- A file needed no change. -/
  | unchanged (path : Path)
  /-- A file would change, but nothing is to be written. -/
  | notWritten (path : Path) (imports : Nat)
  /-- A file was written. -/
  | completed (path : Path) (imports : Nat)
  deriving DecidableEq, Repr

namespace Record

def level : Record → Level
  | .scanning _ | .ignored _ | .unchanged _ | .notWritten .. => .debug
  | .completed .. => .info
  | .skipping _ => .warn

/-- Where a record comes from: the walk over a tree or the work on one file. -/
def target : Record → String
  | .scanning _ | .ignored _ | .skipping _ => "esmfix::walker"
  | .unchanged _ | .notWritten .. | .completed .. => "esmfix::rewrite"

def message : Record → String
  | .scanning _ => "scanning"
  | .ignored _ => "ignored by pattern"
  | .skipping _ => "skipping after error"
  | .unchanged _ => "no imports to fix"
  | .notWritten .. => "dry run, not writing"
  | .completed .. => "rewrote imports"

/-- The named values of a record. -/
def fields : Record → List (String × String)
  | .scanning path | .ignored path | .unchanged path => [("path", path.display)]
  | .skipping error => [("error", error)]
  | .notWritten path imports | .completed path imports =>
      [("path", path.display), ("imports", toString imports)]

/-- The names that filters know a record's parts by. -/
def fieldNames (record : Record) : List String :=
  "message" :: record.fields.map (·.1)

/-- A record in plain text. -/
def line (record : Record) : String :=
  record.level.label ++ " " ++ record.message
    ++ String.join (record.fields.map fun (name, value) => " " ++ name ++ "=" ++ value)

/-- A record with escape sequences. -/
def coloredLine (record : Record) : String :=
  record.level.color ++ record.level.label ++ "\x1b[0m " ++ record.message
    ++ String.join (record.fields.map fun (name, value) =>
        " \x1b[3m" ++ name ++ "\x1b[0m\x1b[2m=\x1b[0m" ++ value)

/-- A record as a line on a terminal, after the time it was made at. -/
def printed (record : Record) (color : Bool) (time : String) : String :=
  if color then "\x1b[2m" ++ time ++ "\x1b[0m " ++ record.coloredLine ++ "\n"
  else time ++ " " ++ record.line ++ "\n"

end Record

end ExplicitImports.Log
