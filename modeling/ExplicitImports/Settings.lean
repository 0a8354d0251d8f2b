import ExplicitImports.Disk.Path

/-!
# Settings of a run

Where to look, which files to take, which imports to complete and with what, and
what to do when something cannot be processed.
-/

namespace ExplicitImports

/-- What to do when a file or directory cannot be processed. -/
inductive FailurePolicy where
  /-- Stop at the first error; what was written before it stays so. -/
  | stop
  /-- Record the failure and go on. -/
  | goOn
  deriving DecidableEq, Repr

structure Settings where
  root : Path := Path.ofString "api"
  suffixes : List String := [".ts"]
  extension : String := ".js"
  excludedPrefixes : List String := ["./node_modules"]
  /-- Patterns for the names of entries that are left out, directories with all
  below them. -/
  ignorePatterns : List String := []
  onFailure : FailurePolicy := .stop
  /-- Tell what would change, and write nothing. -/
  dryRun : Bool := false
  deriving DecidableEq, Repr

namespace Settings

/-- Does a file name end with one of the suffixes? -/
def selects (settings : Settings) (fileName : String) : Bool :=
  settings.suffixes.any fun suffix => suffix.toList.isSuffixOf fileName.toList

/-- Does an import path start with one of the excluded prefixes? -/
def excludes (settings : Settings) (path : List Char) : Bool :=
  settings.excludedPrefixes.any fun start => start.toList.isPrefixOf path

/-- Is an import path one that gets the extension? -/
def completes (settings : Settings) (path : List Char) : Bool :=
  !settings.extension.toList.isSuffixOf path && !settings.excludes path

theorem selects_iff (settings : Settings) (fileName : String) :
    settings.selects fileName = true ↔
      ∃ suffix ∈ settings.suffixes, suffix.toList <:+ fileName.toList := by
  simp [selects]

theorem excludes_iff (settings : Settings) (path : List Char) :
    settings.excludes path = true ↔
      ∃ start ∈ settings.excludedPrefixes, start.toList <+: path := by
  simp [excludes]

end Settings

end ExplicitImports
