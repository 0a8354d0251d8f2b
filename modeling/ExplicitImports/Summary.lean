import ExplicitImports.Disk.Path

/-!
# Summaries

What a run over a tree has done so far, and the one line that tells it.
-/

namespace ExplicitImports

/-- A file whose imports were completed. -/
structure Fix where
  path : Path
  imports : Nat
  deriving DecidableEq, Repr

/-- A file or directory that could not be processed. -/
structure Failure where
  path : Option Path
  error : String
  deriving DecidableEq, Repr

structure Summary where
  dryRun : Bool
  /-- How many files were taken up, whatever became of them. -/
  scanned : Nat := 0
  /-- How many imports were completed, counted in 64 bits: past them it starts
  again at zero. -/
  imports : UInt64 := 0
  fixed : List Fix := []
  failures : List Failure := []
  deriving DecidableEq, Repr

namespace Summary

def addFix (summary : Summary) (file : Fix) : Summary :=
  { summary with
    imports := summary.imports + UInt64.ofNat file.imports
    fixed := summary.fixed ++ [file] }

def addFailure (summary : Summary) (failure : Failure) : Summary :=
  { summary with failures := summary.failures ++ [failure] }

def countScanned (summary : Summary) : Summary :=
  { summary with scanned := summary.scanned + 1 }

def anyFailed (summary : Summary) : Bool :=
  !summary.failures.isEmpty

/-- A number and what it counts, in the singular for one only. -/
def counted (n : Nat) (one many : String) : String :=
  toString n ++ " " ++ if n = 1 then one else many

/-- The summary in one line; failures are told when there are any. -/
def line (summary : Summary) : String :=
  counted summary.fixed.length "file" "files"
    ++ (if summary.dryRun then " would be fixed, " else " fixed, ")
    ++ counted summary.imports.toNat "import" "imports"
    ++ " rewritten (" ++ toString summary.scanned ++ " scanned)"
    ++ if summary.anyFailed then
        ", " ++ counted summary.failures.length "failure" "failures"
      else ""

@[simp] theorem fixed_addFix (summary : Summary) (file : Fix) :
    (summary.addFix file).fixed = summary.fixed ++ [file] := rfl

@[simp] theorem failures_addFix (summary : Summary) (file : Fix) :
    (summary.addFix file).failures = summary.failures := rfl

@[simp] theorem fixed_addFailure (summary : Summary) (failure : Failure) :
    (summary.addFailure failure).fixed = summary.fixed := rfl

@[simp] theorem failures_addFailure (summary : Summary) (failure : Failure) :
    (summary.addFailure failure).failures = summary.failures ++ [failure] := rfl

end Summary

end ExplicitImports
