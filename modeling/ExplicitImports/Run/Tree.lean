import ExplicitImports.Run.State

/-!
# A whole tree

A run walks a directory tree from the root, in the order of the names' bytes,
takes up every candidate and tells a reporter what became of it.  A directory is
listed when the walk comes to it; an entry keeps the type it was listed with.
Names that match an ignore pattern are passed by with all below them, the root's
own name excepted.
-/

namespace ExplicitImports

/-- A root that stands for the standard input, where no file is looked for. -/
def Path.isStandardInput (path : Path) : Bool :=
  path.Alike (Path.ofString "-")

/-- How one walks: what to do, which names to pass by, whom to tell. -/
structure Traversal (σ : Type) where
  settings : Settings
  ignored : List Glob.Pattern
  reporter : Reporter σ

namespace Traversal

variable {σ : Type}

/-- Tell the reporter something; its refusal ends the run. -/
def tell (traversal : Traversal σ) (callback : Callback) : RunM σ Unit := do
  RunM.record [.called callback]
  let state ← get
  let (result, memory) := traversal.reporter.tell callback state.reporter
  set { state with reporter := memory, disk := traversal.reporter.touch callback state.disk }
  match result with
  | .ok () => return
  | .error cause => throw (.output cause)

/-- End the run with an error, or record it as a failure and go on. -/
def fail (traversal : Traversal σ) (error : RunError) : RunM σ Unit :=
  match traversal.settings.onFailure with
  | .stop => throw error
  | .goOn => do
      RunM.record [.log (.skipping error.message)]
      let failure : Failure := { path := error.path?, error := error.message }
      traversal.tell (.failed failure)
      RunM.summarize (·.addFailure failure)

/-- Take up a file.  It is told to the reporter before it is in the summary. -/
def scan (traversal : Traversal σ) (path : Path) : RunM σ Unit := do
  RunM.summarize Summary.countScanned
  RunM.record [.log (.scanning path)]
  let run := completeFile traversal.settings path (← RunM.disk)
  modify fun state =>
    { state with disk := run.disk, trace := state.trace ++ run.events.map .file }
  match run.result with
  | .ok .unchanged => return
  | .ok (.completed imports) =>
      let file : Fix := { path, imports }
      traversal.tell (.fixed file)
      RunM.summarize (·.addFix file)
  | .error error => traversal.fail error

/-- Is an entry of this type a file to take up?  A link is one when it leads to a
file, and also when it leads nowhere, which then is an error of reading it. -/
def leadsToFile (disk : Disk) (path : Path) : NodeKind → Bool
  | .file => true
  | .link =>
      match disk.stat path with
      | .ok kind => kind = .file
      | .error _ => true
  | .dir | .pipe => false

/-- Does some ignore pattern stand for this name? -/
def passesBy (traversal : Traversal σ) (name : Name) : Bool :=
  traversal.ignored.any (·.isMatch name.text)

/-- A directory that cannot be listed. -/
def listingError (path : Path) (cause : IoError) : RunError :=
  .walk (.withPath path (.io (.listing path cause)))

/-- Walk a directory and at most so many levels below it. -/
def walkDirectory (traversal : Traversal σ) : (levels : Nat) → Path → RunM σ Unit
  | 0, path => traversal.fail (listingError path (.os .nameTooLong))
  | levels + 1, path => do
      match (← RunM.disk).list path with
      | .error cause => traversal.fail (listingError path cause)
      | .ok entries =>
          entries.forM fun (name, kind) => do
            let path := path.join name.bytes
            if traversal.passesBy name then RunM.record [.log (.ignored path)]
            else if kind = .dir then traversal.walkDirectory levels path
            else if leadsToFile (← RunM.disk) path kind && traversal.settings.selects name.text then
              traversal.scan path

/-- Walk from the root, whose type is that of what it leads to.  The path of an
entry is longer than its directory's, so there are fewer levels than a path may
have bytes. -/
def walk (traversal : Traversal σ) (kind : NodeKind) : RunM σ Unit :=
  let root := traversal.settings.root
  if root.isStandardInput then return
  else match kind with
    | .dir => traversal.walkDirectory Disk.pathLimit root
    | .file =>
        if traversal.settings.selects (Utf8.stringLossy root.fileName) then traversal.scan root
        else return
    | .link | .pipe => return

open RunM

/-- After a callback the reporter has taken it in, and the disk is as it was left. -/
theorem exec_tell (traversal : Traversal σ) (callback : Callback) (state : RunState σ) :
    exec (traversal.tell callback) state =
      ((traversal.reporter.tell callback state.reporter).1.mapError .output,
        { state with
          trace := state.trace ++ [.called callback]
          reporter := (traversal.reporter.tell callback state.reporter).2
          disk := traversal.reporter.touch callback state.disk }) := by
  unfold tell
  rw [exec_bind, exec_record]
  simp only
  rw [exec_bind, exec_get]
  simp only
  rw [exec_bind, exec_set]
  simp only
  cases (traversal.reporter.tell callback state.reporter).1 <;> rfl

/-- Where failures stop a run, nothing is done about one. -/
theorem exec_fail_of_stop {traversal : Traversal σ} (h : traversal.settings.onFailure = .stop)
    (error : RunError) (state : RunState σ) :
    exec (traversal.fail error) state = (.error error, state) := by
  simp [fail, h]

end Traversal

/-- The steps of a run.  The patterns are read first and the root is looked at
next, before anything else happens. -/
def runTree {σ : Type} (settings : Settings) (reporter : Reporter σ) : RunM σ Summary := do
  let ignored ← RunM.ofExcept (Glob.parseAll settings.ignorePatterns)
  let disk ← RunM.disk
  let kind ← RunM.ofExcept ((disk.stat settings.root).mapError (.io settings.root))
  let traversal : Traversal σ := { settings, ignored, reporter }
  traversal.walk kind
  let summary := (← get).summary
  traversal.tell (.done summary)
  return summary

/-- A finished run over a tree. -/
structure TreeRun (σ : Type) where
  result : Except RunError Summary
  final : RunState σ

/-- Complete the imports of every candidate below the root. -/
def completeTree {σ : Type} (settings : Settings) (reporter : Reporter σ) (memory : σ)
    (disk : Disk) : TreeRun σ :=
  let (result, final) := (runTree settings reporter).exec
    { disk, summary := { dryRun := settings.dryRun }, reporter := memory }
  { result, final }

end ExplicitImports
