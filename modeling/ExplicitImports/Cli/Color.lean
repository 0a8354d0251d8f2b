import ExplicitImports.Cli.Option

/-!
# When to use color

What the environment says about color and terminals, and the rules that follow
from it: whether the program wants color, whether the streams that it prints
notices to let escape sequences through, and whether messages about the command
line are colored.
-/

namespace ExplicitImports.Cli

/-- What a run can learn from its environment. -/
structure Environment where
  /-- The value of `NO_COLOR`. -/
  noColor : Option String := none
  /-- `FORCE_COLOR` is set, to whatever. -/
  forceColor : Bool := false
  /-- The value of `CLICOLOR_FORCE`. -/
  cliColorForce : Option String := none
  /-- The type of the terminal, from `TERM`. -/
  term : Option String := none
  /-- Which log records to show, from `RUST_LOG`. -/
  logFilter : Option String := none
  outputIsTerminal : Bool := false
  deriving DecidableEq, Repr

namespace Environment

/-- Does the program want color? -/
def wantsColor (environment : Environment) : ColorUse → Bool
  | .always => true
  | .never => false
  | .auto =>
      if environment.noColor.isSome then false
      else if environment.forceColor then true
      else if environment.term = some "dumb" then false
      else environment.outputIsTerminal

/-- Does the terminal take escape sequences? -/
def takesEscapes (environment : Environment) : Bool :=
  environment.noColor.isNone && environment.term.isSome && environment.term ≠ some "dumb"

/-- Are messages about the command line colored?  Only on demand, and a variable
without a value demands nothing. -/
def colorsMessages (environment : Environment) : Bool :=
  isGiven environment.cliColorForce && !isGiven environment.noColor
where
  isGiven (value : Option String) : Bool :=
    value.getD "" ≠ ""

end Environment

end ExplicitImports.Cli
