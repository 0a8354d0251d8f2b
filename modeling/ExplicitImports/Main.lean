import ExplicitImports.Cli.Command

/-!
# The program

The names of the files and directories to work on come on standard input, one to
a line, directories before what is in them.  They are loaded into a disk, the
command runs on it, and the files that the command wrote are written.  All
decisions are the command's; this module only moves data.
-/

namespace ExplicitImports.Program

/-- The absolute path of a location. -/
def absolute (place : Location) : Bytes :=
  place.flatMap fun name => Path.slash :: name.bytes

/-- The path of the directory that a path stands in, and its last part. -/
def splitLast (path : String) : String × String :=
  match path.splitOn "/" with
  | [name] => (".", name)
  | parts =>
      let directory := "/".intercalate parts.dropLast
      (if directory = "" then "/" else directory, parts.getLastD "")

/-- Where a link points to that leads nowhere. -/
def nowhere : Path :=
  Path.ofString "/nowhere/at/all"

/-- How a disk answers where the system has refused to read a file. -/
def answer : IO.Error → IoError
  | .permissionDenied .. => .os .permissionDenied
  | error => .custom (toString error)

/-- What stands at a path, links followed, and the answer to reading it if that fails. -/
def loadNode (path : String) : IO (Node × Option IoError) := do
  try
    return (.file (← IO.FS.readBinFile path).toList, none)
  catch error =>
    -- Only what is in a directory can be looked up behind a slash.
    let isDirectory ← try discard (IO.FS.realPath (path ++ "/.")); pure true catch _ => pure false
    return if isDirectory then (.dir, none) else (.file [], some (answer error))

/-- The disk with what one name stands for; a path that leads elsewhere than to its
own place is a link. -/
def load (disk : Disk) (path : String) : IO Disk := do
  let (directory, name) := splitLast path
  let parent := toString (← IO.FS.realPath directory)
  let own := if parent = "/" then "/" ++ name else parent ++ "/" ++ name
  let real ← try pure (some (toString (← IO.FS.realPath path))) catch _ => pure none
  match real with
  | none => return disk.put (Path.ofString own) (.link nowhere)
  | some real =>
      let (node, refused) ← loadNode real
      let disk := disk.put (Path.ofString real) node
      let unreadable := refused.toList.map fun cause => ((Path.ofString real).names, cause)
      let disk := { disk with unreadable := unreadable ++ disk.unreadable }
      if real = own ∨ name = "." ∨ name = ".." then return disk
      else return disk.put (Path.ofString own) (.link (Path.ofString real))

/-- The lines of a stream. -/
partial def readLines (input : IO.FS.Stream) (lines : Array String) : IO (List String) := do
  let line ← input.getLine
  if line = "" then return lines.toList
  else readLines input (lines.push (String.ofList (line.toList.filter (· ≠ '\n'))))

/-- The disk that the command works on. -/
def loadDisk : IO Disk := do
  let cwd := toString (← IO.currentDir)
  let names := (Path.ofString cwd).parts.filterMap Name.ofBytes?
  let start := Disk.put { nodes := [], cwd := names } (Path.ofString cwd) .dir
  let disk ← (← readLines (← IO.getStdin) #[]).foldlM load start
  return { disk with journal := [] }

/-- Write the files that the command wrote. -/
def save (disk : Disk) : IO Unit :=
  for place in disk.journal.eraseDups do
    if let some (.file data) := disk.lookup place then
      IO.FS.writeBinFile (Utf8.stringLossy (absolute place)) ⟨data.toArray⟩

def environment : IO Cli.Environment := do
  return {
    noColor := ← IO.getEnv "NO_COLOR"
    forceColor := (← IO.getEnv "FORCE_COLOR").isSome
    cliColorForce := ← IO.getEnv "CLICOLOR_FORCE"
    term := ← IO.getEnv "TERM"
    logFilter := ← IO.getEnv "RUST_LOG"
    outputIsTerminal := ← (← IO.getStdout).isTty }

end ExplicitImports.Program

open ExplicitImports in
def main (arguments : List String) : IO UInt32 := do
  let arguments := arguments.map Utf8.ofString
  let disk ← match Cli.Arguments.parse arguments with
    | .ok _ => Program.loadDisk
    | .error _ => pure { nodes := [] }
  let time := toString (← IO.monoMsNow) ++ "ms"
  let outcome := Cli.run arguments (← Program.environment) time disk
  Program.save outcome.disk
  (← IO.getStdout).write ⟨outcome.stdout.toArray⟩
  (← IO.getStderr).putStr outcome.stderr
  return outcome.code.toUInt32
