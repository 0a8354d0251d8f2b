import ExplicitImports.Disk.Path

/-!
# Errors of reading and writing

The causes for which a disk or an output stream refuses a request, each with its
kind and its wording.
-/

namespace ExplicitImports

/-- The kinds that errors are sorted into. -/
inductive ErrorKind where
  | notFound
  | permissionDenied
  | alreadyExists
  | notADirectory
  | isADirectory
  | invalidInput
  | invalidData
  | fileTooLarge
  | storageFull
  | invalidFilename
  | filesystemLoop
  | other
  deriving DecidableEq, Repr

/-- What the operating system answers when it refuses. -/
inductive OsError where
  | notPermitted
  | notFound
  | permissionDenied
  | fileExists
  | notADirectory
  | isADirectory
  | invalidArgument
  | fileTooLarge
  | noSpace
  | nameTooLong
  | tooManyLinks
  deriving DecidableEq, Repr

namespace OsError

/-- Every answer, in the order of the numbers. -/
def all : List OsError :=
  [.notPermitted, .notFound, .permissionDenied, .fileExists, .notADirectory, .isADirectory,
    .invalidArgument, .fileTooLarge, .noSpace, .nameTooLong, .tooManyLinks]

/-- The number of an answer. -/
def number : OsError → Nat
  | .notPermitted => 1
  | .notFound => 2
  | .permissionDenied => 13
  | .fileExists => 17
  | .notADirectory => 20
  | .isADirectory => 21
  | .invalidArgument => 22
  | .fileTooLarge => 27
  | .noSpace => 28
  | .nameTooLong => 36
  | .tooManyLinks => 40

/-- The answer with a number. -/
def ofNumber? (n : Nat) : Option OsError :=
  all.find? (·.number = n)

/-- The system's own words. -/
def description : OsError → String
  | .notPermitted => "Operation not permitted"
  | .notFound => "No such file or directory"
  | .permissionDenied => "Permission denied"
  | .fileExists => "File exists"
  | .notADirectory => "Not a directory"
  | .isADirectory => "Is a directory"
  | .invalidArgument => "Invalid argument"
  | .fileTooLarge => "File too large"
  | .noSpace => "No space left on device"
  | .nameTooLong => "File name too long"
  | .tooManyLinks => "Too many levels of symbolic links"

def kind : OsError → ErrorKind
  | .notPermitted | .permissionDenied => .permissionDenied
  | .notFound => .notFound
  | .fileExists => .alreadyExists
  | .notADirectory => .notADirectory
  | .isADirectory => .isADirectory
  | .invalidArgument => .invalidInput
  | .fileTooLarge => .fileTooLarge
  | .noSpace => .storageFull
  | .nameTooLong => .invalidFilename
  | .tooManyLinks => .filesystemLoop

def message (e : OsError) : String :=
  e.description ++ " (os error " ++ toString e.number ++ ")"

theorem ofNumber?_number (e : OsError) : ofNumber? e.number = some e := by
  cases e <;> decide

end OsError

/-- Why a request to a disk or a stream failed. -/
inductive IoError where
  /-- The operating system refused. -/
  | os (error : OsError)
  /-- A file that was to be read as text is not UTF-8. -/
  | notUtf8
  /-- A path holds a NUL byte. -/
  | nulInPath
  /-- A failure told in words only. -/
  | custom (text : String)
  /-- A directory could not be listed. -/
  | listing (path : Path) (cause : IoError)
  deriving Repr

namespace IoError

def kind : IoError → ErrorKind
  | .os e => e.kind
  | .notUtf8 => .invalidData
  | .nulInPath => .invalidInput
  | .custom _ => .other
  | .listing _ cause => cause.kind

def message : IoError → String
  | .os e => e.message
  | .notUtf8 => "stream did not contain valid UTF-8"
  | .nulInPath => "file name contained an unexpected NUL byte"
  | .custom text => text
  | .listing path cause => "IO error for operation on " ++ path.display ++ ": " ++ cause.message

end IoError

end ExplicitImports
