import ExplicitImports.Log.Directive

/-!
# Log filters

A filter is a list of directives.  Of those that apply to a record the closest one
decides, the last one among equally close ones; where none applies nothing is
shown.
-/

namespace ExplicitImports.Log

abbrev Filter := List Directive

namespace Filter

/-- The filter for one level. -/
def upTo (level : Level) : Filter :=
  [{ level := some level }]

/-- The directive that decides on a record. -/
def directiveFor? (filter : Filter) (record : Record) : Option Directive :=
  (filter.filter (·.appliesTo record)).foldl (fun best directive =>
    match best with
    | none => some directive
    | some closest => if directive.isAsClose closest then some directive else best) none

def shows (filter : Filter) (record : Record) : Bool :=
  match filter.directiveFor? record with
  | some directive => directive.shows record
  | none => false

/-- The filter that some directives make.  Directives that also say something about
spans come after the others, and where nothing is said about records or spans,
errors alone are shown. -/
def ofDirectives (directives : List Directive) : Filter :=
  let (spans, plain) := directives.partition (·.concernsSpans)
  if directives.isEmpty then upTo .error else plain ++ spans.filter (·.concernsRecords)

/-- Read a filter: directives between commas.  One that cannot be read spoils the
whole. -/
def parse? (text : String) : Option Filter := do
  let directives ← ((text.splitOn ",").filter (· ≠ "")).mapM (Directive.parse? ·.toList)
  return ofDirectives directives

theorem shows_upTo (level : Level) (record : Record) :
    (upTo level).shows record = record.level.shownAt level := rfl

end Filter

end ExplicitImports.Log
