import ExplicitImports.Output.Reporter
import ExplicitImports.Output.Stream
import ExplicitImports.Text.Json

/-!
# Reports for programs

Nothing is printed on the way; at the end the summary is printed as one JSON
document.  An empty list of failures and a missing path are left out.  A path
that is not UTF-8 has no place in the document, so that such a summary cannot be
printed at all.
-/

namespace ExplicitImports.Document

/-- How a summary with a path that is not UTF-8 is refused. -/
def pathNotUtf8 : IoError :=
  .custom "path contains invalid UTF-8 characters"

def ofPath (path : Path) : Except IoError Json :=
  match path.string? with
  | some text => .ok (.string text)
  | none => .error pathNotUtf8

def ofFixedFile (file : Fix) : Except IoError Json := do
  return .object [("path", ← ofPath file.path), ("imports", .number file.imports)]

def ofFailure (failure : Failure) : Except IoError Json := do
  let path ← match failure.path with
    | none => pure []
    | some path => pure [("path", ← ofPath path)]
  return .object (path ++ [("error", .string failure.error)])

/-- The members that tell the failures, if there are any. -/
def failureMembers (failures : List Failure) : Except IoError (List (String × Json)) :=
  match failures with
  | [] => pure []
  | _ :: _ => do return [("failures", .array (← failures.mapM ofFailure))]

/-- The value of a summary. -/
def ofSummary (summary : Summary) : Except IoError Json := do
  let fixed ← summary.fixed.mapM ofFixedFile
  let failures ← failureMembers summary.failures
  return .object ([("dry_run", .bool summary.dryRun),
    ("scanned", .number summary.scanned),
    ("imports_rewritten", .number summary.imports.toNat),
    ("fixed", .array fixed)] ++ failures)

/-- The printed form of a summary. -/
def print (summary : Summary) : Except IoError Bytes := do
  return Utf8.encode ((← ofSummary summary).pretty ++ ['\n'])

/-- The reporter that prints to the output stream. -/
def reporter : Reporter Streams where
  tell callback streams :=
    match callback with
    | .fixed _ | .failed _ => (.ok (), streams)
    | .done summary =>
        match print summary with
        | .error e => (.error e, streams)
        | .ok bytes =>
            let (result, out) := streams.out.write bytes
            (result, { streams with out })

theorem reporter_leavesDisk : reporter.LeavesDisk := fun _ _ => rfl

end ExplicitImports.Document
