import ExplicitImports.Cli.Message
import ExplicitImports.Cli.Option
import ExplicitImports.Settings

/-!
# Arguments

The arguments are read from left to right.  An option whose value is to come, and
a value itself, wait until the next argument acts; only then is it checked
whether a value is missing, whether the option was given before, and whether the
value is well formed.  An argument that makes no sense by itself is refused at
once, whatever waits.
-/

namespace ExplicitImports.Cli

/-- What takes a value: an option, or the root by its place. -/
inductive Slot where
  | setting (setting : Setting)
  | root
  deriving DecidableEq, Repr

def Slot.display : Slot → String
  | .setting which => (Opt.setting which).display
  | .root => "[ROOT]"

/-- Why the arguments are refused. -/
inductive UsageError where
  | unexpectedArgument (text : String)
  | unexpectedValue (text : String) (opt : Opt)
  | missingValue (slot : Slot)
  | repeated (name : String)
  | invalidColor (text : String)
  | notUtf8
  deriving DecidableEq, Repr

/-- What is wrong stands out, and so does the option that a wrong value was for. -/
def UsageError.message (error : UsageError) : Message :=
  .marked .error "error:" ++ .text " " ++ match error with
    | .unexpectedArgument text =>
        .text "unexpected argument '" ++ .marked .invalid text ++ .text "' found"
    | .unexpectedValue text opt =>
        .text "unexpected value '" ++ .marked .invalid text ++ .text "' for '"
          ++ .marked .literal opt.display ++ .text "' found; no more were expected"
    | .missingValue slot =>
        .text "a value is required for '" ++ .marked .invalid slot.display
          ++ .text "' but none was supplied"
    | .repeated name =>
        .text "the argument '" ++ .marked .invalid name
          ++ .text "' cannot be used multiple times"
    | .invalidColor text =>
        .text "invalid value '" ++ .marked .invalid text ++ .text "' for '"
          ++ .marked .literal (Opt.setting .color).display ++ .text "'"
    | .notUtf8 => .text "invalid UTF-8 was detected in one or more arguments"

/-- What was given on the command line; a list that is empty was not given. -/
structure Arguments where
  root : Option Path := none
  suffixes : List String := []
  extension : Option String := none
  excludedPrefixes : List String := []
  ignorePatterns : List String := []
  color : Option ColorUse := none
  dryRun : Bool := false
  keepGoing : Bool := false
  json : Bool := false
  quiet : Bool := false
  verbosity : Nat := 0
  deriving DecidableEq, Repr

/-- Why reading ends before the last argument. -/
inductive Stop where
  | error (error : UsageError)
  | shortHelp
  | longHelp
  | version
  deriving DecidableEq, Repr

namespace Arguments

/-- The text of a value that has to be one. -/
def text (value : Bytes) : Except UsageError String :=
  match Utf8.string? value with
  | some text => .ok text
  | none => .error .notUtf8

/-- The arguments with a value given for a slot. -/
def store (arguments : Arguments) (slot : Slot) (value : Bytes) :
    Except UsageError Arguments := do
  match slot with
  | .setting .suffix =>
      return { arguments with suffixes := arguments.suffixes ++ [← text value] }
  | .setting .excludePrefix =>
      return { arguments with excludedPrefixes := arguments.excludedPrefixes ++ [← text value] }
  | .setting .ignore =>
      return { arguments with ignorePatterns := arguments.ignorePatterns ++ [← text value] }
  | .setting .extension =>
      if arguments.extension.isSome then throw (.repeated slot.display)
      return { arguments with extension := some (← text value) }
  | .setting .color =>
      if arguments.color.isSome then throw (.repeated slot.display)
      if value = [] then throw (.missingValue slot)
      let name := Utf8.stringLossy value
      match ColorUse.ofName? name with
      | some mode => return { arguments with color := some mode }
      | none => throw (.invalidColor name)
  | .root =>
      if value = [] then throw (.missingValue slot)
      return { arguments with root := some ⟨value⟩ }

/-- The arguments with a flag set. -/
def raise (arguments : Arguments) (flag : Flag) : Except UsageError Arguments :=
  let once (given : Bool) (result : Arguments) : Except UsageError Arguments :=
    if given then .error (.repeated (Opt.flag flag).display) else .ok result
  match flag with
  | .dryRun => once arguments.dryRun { arguments with dryRun := true }
  | .keepGoing => once arguments.keepGoing { arguments with keepGoing := true }
  | .json => once arguments.json { arguments with json := true }
  | .quiet => once arguments.quiet { arguments with quiet := true }
  | .verbose => .ok { arguments with verbosity := arguments.verbosity + 1 }

/-- The settings of the run that was asked for. -/
def settings (arguments : Arguments) : Settings :=
  let defaults : Settings := {}
  { root := arguments.root.getD defaults.root
    suffixes := given arguments.suffixes defaults.suffixes
    extension := arguments.extension.getD defaults.extension
    excludedPrefixes := given arguments.excludedPrefixes defaults.excludedPrefixes
    ignorePatterns := arguments.ignorePatterns
    onFailure := if arguments.keepGoing then .goOn else .stop
    dryRun := arguments.dryRun }
where
  /-- What was given, or else the default. -/
  given (values defaults : List String) : List String :=
    if values = [] then defaults else values

end Arguments

/-- What is read so far: the arguments that have been checked, and what waits,
with its value if that has come. -/
structure Reading where
  arguments : Arguments := {}
  waiting : Option (Slot × Option Bytes) := none

namespace Reading

/-- Check what waits. -/
def settle (reading : Reading) : Except Stop Arguments :=
  match reading.waiting with
  | none => .ok reading.arguments
  | some (slot, none) => .error (.error (.missingValue slot))
  | some (slot, some value) => (reading.arguments.store slot value).mapError .error

/-- Act on a flag, or stop at one of the options that print something. -/
def act (reading : Reading) (stop : Except Stop Flag) : Except Stop Reading := do
  let arguments ← reading.settle
  match stop with
  | .error stop => throw stop
  | .ok flag => return { arguments := ← (arguments.raise flag).mapError .error }

/-- Act on an option that takes a value, which may be attached to it. -/
def begin (reading : Reading) (setting : Setting) (value : Option Bytes) :
    Except Stop Reading := do
  let arguments ← reading.settle
  match value with
  | none => return { arguments, waiting := some (.setting setting, none) }
  | some value =>
      return { arguments := ← (arguments.store (.setting setting) value).mapError .error }

/-- Take a value as the root, of which there is one. -/
def takeRoot (reading : Reading) (value : Bytes) : Except Stop Reading :=
  let taken := reading.arguments.root.isSome ||
    match reading.waiting with
    | some (.root, _) => true
    | _ => false
  if taken then .error (.error (.unexpectedArgument (Utf8.stringLossy value)))
  else do
    return { arguments := ← reading.settle, waiting := some (.root, some value) }

/-- Take a value: for the option that waits for one, or else as the root. -/
def takeValue (reading : Reading) (value : Bytes) : Except Stop Reading :=
  match reading.waiting with
  | some (slot, none) => .ok { reading with waiting := some (slot, some value) }
  | _ => reading.takeRoot value

/-- The byte that starts an option. -/
def dash : UInt8 := 0x2D

/-- The byte between an option and its value. -/
def equals : UInt8 := 0x3D

/-- Read what follows the two dashes of a long option. -/
def long (reading : Reading) (text : Bytes) : Except Stop Reading :=
  let name := Utf8.stringLossy (text.takeWhile (· ≠ equals))
  let value := match text.dropWhile (· ≠ equals) with
    | [] => none
    | _ :: value => some value
  match Opt.ofLong? name, value with
  | none, _ => .error (.error (.unexpectedArgument ("--" ++ name)))
  | some (.setting setting), value => reading.begin setting value
  | some opt, some value =>
      .error (.error (.unexpectedValue (Utf8.stringLossy value) opt))
  | some (.flag flag), none => reading.act (.ok flag)
  | some .help, none => reading.act (.error .longHelp)
  | some .version, none => reading.act (.error .version)

/-- Read a cluster of short options, given as pieces of text: flags one after the
other, up to an option that takes the rest as its value. -/
def short (reading : Reading) : List (Option Char) → Bytes → Except Stop Reading
  | [], _ => .ok reading
  | none :: _, text =>
      .error (.error (.unexpectedArgument ("-" ++ Utf8.stringLossy text)))
  | some c :: more, text =>
      let rest := text.drop (String.utf8EncodeChar c).length
      match Opt.ofShort? c with
      | none => .error (.error (.unexpectedArgument ("-" ++ String.ofList [c])))
      | some (.flag flag) => do (← reading.act (.ok flag)).short more rest
      | some .help => reading.act (.error .shortHelp)
      | some .version => reading.act (.error .version)
      | some (.setting setting) =>
          reading.begin setting (match rest with
            | [] => none
            | b :: value => some (if b = equals then value else b :: value))

/-- Read one argument before the end of the options. -/
def argument (reading : Reading) : Bytes → Except Stop Reading
  | [] => reading.takeValue []
  | [b] => reading.takeValue [b]
  | b :: c :: text =>
      if b ≠ dash then reading.takeValue (b :: c :: text)
      else if c = dash then reading.long text
      else reading.short (Utf8.pieces (c :: text)) (c :: text)

/-- Read the arguments one after the other; two dashes end the options. -/
def all (reading : Reading) : List Bytes → Except Stop Reading
  | [] => .ok reading
  | argument :: rest => do
      if argument = [dash, dash] then rest.foldlM takeRoot reading
      else (← reading.argument argument).all rest

end Reading

/-- Read a command line. -/
def Arguments.parse (arguments : List Bytes) : Except Stop Arguments := do
  (← Reading.all {} arguments).settle

end ExplicitImports.Cli
