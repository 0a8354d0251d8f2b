import ExplicitImports.Disk.Error
import ExplicitImports.Glob

/-!
# Errors of a run

What can end a run or be recorded as a failure, with its wording, the path it
refers to and the kind of the refused request behind it.
-/

namespace ExplicitImports

/-- What can go wrong while a directory tree is walked. -/
inductive WalkError where
  /-- Several errors at once. -/
  | several (errors : List WalkError)
  | withLine (line : Nat) (error : WalkError)
  | withPath (path : Path) (error : WalkError)
  | withDepth (depth : Nat) (error : WalkError)
  /-- A link that leads back to a directory above it. -/
  | loop (ancestor child : Path)
  | io (error : IoError)
  | glob (pattern : Option String) (text : String)
  | unrecognizedFileType (text : String)
  | invalidDefinition

namespace WalkError

mutual

/-- The wording of an error; a depth is not told. -/
def message : WalkError → String
  | .several errors => "\n".intercalate (messages errors)
  | .withLine line error => "line " ++ toString line ++ ": " ++ error.message
  | .withPath path error => path.display ++ ": " ++ error.message
  | .withDepth _ error => error.message
  | .loop ancestor child =>
      "File system loop found: " ++ child.display ++ " points to an ancestor "
        ++ ancestor.display
  | .io error => error.message
  | .glob none text => text
  | .glob (some pattern) text => "error parsing glob '" ++ pattern ++ "': " ++ text
  | .unrecognizedFileType text => "unrecognized file type: " ++ text
  | .invalidDefinition => "invalid definition (format is type:glob, e.g., html:*.html)"

/-- The wordings of several errors. -/
def messages : List WalkError → List String
  | [] => []
  | error :: errors => error.message :: messages errors

end

/-- The path of the outermost layer that has one, below depths and line numbers
only. -/
def path? : WalkError → Option Path
  | .withPath path _ => some path
  | .withLine _ error | .withDepth _ error => error.path?
  | _ => none

/-- The refused request behind an error, if there is exactly one. -/
def io? : WalkError → Option IoError
  | .io error => some error
  | .withPath _ error | .withLine _ error | .withDepth _ error => error.io?
  | .several [error] => error.io?
  | _ => none

end WalkError

/-- What can go wrong in a run. -/
inductive RunError where
  /-- A file or the root could not be read or written. -/
  | io (path : Path) (cause : IoError)
  /-- An entry could not be walked into. -/
  | walk (cause : WalkError)
  /-- An ignore pattern is not well formed. -/
  | pattern (text : String) (cause : Glob.PatternError)
  /-- What was to be reported could not be written. -/
  | output (cause : IoError)

namespace RunError

/-- The wording of what is behind an error. -/
def causeMessage : RunError → String
  | .io _ cause => cause.message
  | .walk cause => cause.message
  | .pattern _ cause => cause.message
  | .output cause => cause.message

def message : RunError → String
  | .io path cause => path.display ++ ": " ++ cause.message
  | .walk cause => "walk error: " ++ cause.message
  | .pattern text cause => "invalid ignore pattern '" ++ text ++ "': " ++ cause.message
  | .output cause => "error writing output: " ++ cause.message

/-- The path an error refers to, if there is one. -/
def path? : RunError → Option Path
  | .io path _ => some path
  | .walk cause => cause.path?
  | .pattern .. | .output _ => none

/-- The kind of the refused request behind an error, if there is one. -/
def ioKind? : RunError → Option ErrorKind
  | .io _ cause | .output cause => some cause.kind
  | .walk cause => cause.io?.map IoError.kind
  | .pattern .. => none

end RunError

/-- The patterns that a list of texts spells, or the first text that spells none. -/
def Glob.parseAll (texts : List String) : Except RunError (List Glob.Pattern) :=
  texts.mapM fun text =>
    match Glob.Pattern.parse text with
    | .ok pattern => .ok pattern
    | .error cause => .error (.pattern text cause)

end ExplicitImports
