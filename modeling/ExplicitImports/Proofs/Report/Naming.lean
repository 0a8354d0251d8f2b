import ExplicitImports.Proofs.Report.Account
import ExplicitImports.Proofs.Report.Ending

/-!
# What an error names

The path of an error and its wording are told by two recursions over the layers of the error.
They agree: the path is the first thing that the wording names.

* `WalkError.Layer`, `WalkError.wrapped` — line numbers and depths around an error.
* `path?_eq_some_iff` — an error of a walk has a path if one comes next below such layers.
* `RunError.tellsFirst` — then the wording tells it before anything else.
* `named_path` — so it is with every error, and with every failure that a run tells of.
-/

namespace ExplicitImports

open RunM

/-- The text is `words`, then perhaps numbers of lines, then the path and a colon: the path is the
first thing that it names. -/
def TellsFirst (words : String) (path : Path) (text : String) : Prop :=
  ∃ (lines : List Nat) (rest : String),
    text = words ++ String.join (lines.map fun line => "line " ++ toString line ++ ": ")
      ++ path.display ++ ": " ++ rest

namespace WalkError

/-- What may stand around an error and names no path. -/
inductive Layer where
  | line (number : Nat)
  | depth (levels : Nat)

namespace Layer

/-- The error with one layer more around it. -/
def around : Layer → WalkError → WalkError
  | line number, error => .withLine number error
  | depth levels, error => .withDepth levels error

/-- The number of the line that a layer is about. -/
def line? : Layer → Option Nat
  | line number => some number
  | depth _ => none

@[simp] theorem path?_around (layer : Layer) (error : WalkError) :
    (layer.around error).path? = error.path? := by
  cases layer <;> rfl

end Layer

/-- The error with layers around it, the outermost first. -/
def wrapped (layers : List Layer) (error : WalkError) : WalkError :=
  layers.foldr Layer.around error

@[simp] theorem path?_wrapped (layers : List Layer) (error : WalkError) :
    (wrapped layers error).path? = error.path? := by
  induction layers with
  | nil => rfl
  | cons layer layers ih =>
      show (layer.around (wrapped layers error)).path? = _
      rw [Layer.path?_around, ih]

/-- An error has a path exactly if, below line numbers and depths alone, it is one with a path,
and it has that one. -/
theorem path?_eq_some_iff {error : WalkError} {path : Path} :
    error.path? = some path ↔ ∃ layers inner, error = wrapped layers (.withPath path inner) := by
  constructor
  · intro h
    fun_induction path? error with
    | case1 found inner =>
        cases h
        exact ⟨[], inner, rfl⟩
    | case2 number error ih =>
        obtain ⟨layers, inner, rfl⟩ := ih h
        exact ⟨.line number :: layers, inner, rfl⟩
    | case3 levels error ih =>
        obtain ⟨layers, inner, rfl⟩ := ih h
        exact ⟨.depth levels :: layers, inner, rfl⟩
    | case4 error => cases h
  · rintro ⟨layers, inner, rfl⟩
    rw [path?_wrapped]
    rfl

/-- Around an error only the lines are told. -/
theorem message_wrapped (layers : List Layer) (error : WalkError) :
    (wrapped layers error).message =
      String.join ((layers.filterMap Layer.line?).map fun line => "line " ++ toString line ++ ": ")
        ++ error.message := by
  induction layers with
  | nil => simp [wrapped]
  | cons layer layers ih =>
      cases layer with
      | line number =>
          have hline : (Layer.line number).line? = some number := rfl
          show "line " ++ toString number ++ ": " ++ (wrapped layers error).message = _
          rw [ih, List.filterMap_cons_some hline, List.map_cons, String.join_cons]
          simp only [String.append_assoc]
      | depth levels =>
          show (wrapped layers error).message = _
          rw [ih, List.filterMap_cons_none rfl]

/-- The wording of an error names its path first. -/
theorem tellsFirst {error : WalkError} {path : Path} (h : error.path? = some path)
    (words : String) : TellsFirst words path (words ++ error.message) := by
  obtain ⟨layers, inner, rfl⟩ := path?_eq_some_iff.1 h
  have hinner : (WalkError.withPath path inner).message = path.display ++ ": " ++ inner.message :=
    rfl
  refine ⟨layers.filterMap Layer.line?, inner.message, ?_⟩
  rw [message_wrapped, hinner]
  simp only [String.append_assoc]

end WalkError

namespace RunError

/-- The words that the wording of an error starts with, whatever is behind it. -/
def ownWords : RunError → String
  | .io .. => ""
  | .walk _ => "walk error: "
  | .pattern .. => "invalid ignore pattern '"
  | .output _ => "error writing output: "

/-- Behind its own words the wording of an error names its path first. -/
theorem tellsFirst {error : RunError} {path : Path} (h : error.path? = some path) :
    TellsFirst error.ownWords path error.message := by
  cases error with
  | io found cause =>
      cases h
      exact ⟨[], cause.message, rfl⟩
  | walk cause => exact WalkError.tellsFirst h _
  | pattern text cause => cases h
  | output cause => cases h

end RunError

/-- The failure has a path, and its wording names it first. -/
def Failure.NamesPath (failure : Failure) : Prop :=
  ∃ path, failure.path = some path ∧
    (TellsFirst "" path failure.error ∨ TellsFirst "walk error: " path failure.error)

/-- A step that fails records a failure that names its path. -/
theorem Step.namesPath {settings : Settings} {disk next : Disk} {outcome : Outcome}
    {error : RunError} (h : Step settings disk outcome next)
    (herror : outcome.error? = some error) : error.failure.NamesPath := by
  rcases h.error?_eq herror with ⟨path, cause, rfl, -⟩ | ⟨path, cause, rfl, -⟩
  · have hpath : (RunError.io path cause).path? = some path := rfl
    exact ⟨path, hpath, .inl (RunError.tellsFirst hpath)⟩
  · have hpath : (Traversal.listingError path cause).path? = some path := rfl
    exact ⟨path, hpath, .inr (RunError.tellsFirst hpath)⟩

/-- The failures that a callback tells of. -/
def Callback.failures : Callback → List Failure
  | .fixed _ => []
  | .failed failure => [failure]
  | .done summary => summary.failures

/-- The failures that the reporter was told of name their paths, and so do those in the summary. -/
structure RunState.NamesPaths {σ : Type} (state : RunState σ) : Prop where
  told : ∀ callback ∈ state.callbacks, ∀ failure ∈ callback.failures, failure.NamesPath
  recorded : ∀ failure ∈ state.summary.failures, failure.NamesPath

/-- In a step the reporter is told of no other failure than its own. -/
theorem Outcome.exists_error_of_told {policy : FailurePolicy} {outcome : Outcome}
    {callback : Callback} (h : callback ∈ (outcome.notice policy).filterMap Event.called?)
    {failure : Failure} (hfailure : failure ∈ callback.failures) :
    ∃ error, outcome.error? = some error ∧ failure = error.failure := by
  have hnotice (error : RunError)
      (h : callback ∈ (error.notice policy).filterMap Event.called?) :
      failure = error.failure := by
    cases policy with
    | stop => cases h
    | goOn =>
        obtain rfl : callback = .failed error.failure := List.mem_singleton.1 h
        exact List.mem_singleton.1 hfailure
  cases outcome with
  | ignored path => cases h
  | unchanged path => cases h
  | fixed file =>
      obtain rfl : callback = .fixed file := List.mem_singleton.1 h
      cases hfailure
  | unlisted path cause => exact ⟨_, rfl, hnotice _ h⟩
  | broken path tried error => exact ⟨_, rfl, hnotice _ h⟩

/-- One more step keeps it so. -/
theorem Traversal.namesPaths_settle {σ : Type} {traversal : Traversal σ} {state : RunState σ}
    {outcome : Outcome} {next : Disk} (hstate : state.NamesPaths)
    (hstep : Step traversal.settings state.disk outcome next) :
    Ends RunState.NamesPaths
      (fun _ last =>
        ∀ callback ∈ last.callbacks, ∀ failure ∈ callback.failures, failure.NamesPath)
      (exec (traversal.settle outcome) (state.afterWork traversal.settings outcome next)) := by
  -- This holds also if the reporter refuses what it is told, for it was told then.
  have htold : ∀ callback ∈ (exec (traversal.settle outcome)
      (state.afterWork traversal.settings outcome next)).2.callbacks,
        ∀ failure ∈ callback.failures, failure.NamesPath := by
    intro callback hcallback failure hfailure
    rw [RunState.callbacks_eq, trace_exec_settle_afterWork, List.filterMap_append,
      ← RunState.callbacks_eq, Outcome.events, List.filterMap_append, Outcome.called?_work,
      List.nil_append] at hcallback
    rcases List.mem_append.1 hcallback with hbefore | hlast
    · exact hstate.told callback hbefore failure hfailure
    · obtain ⟨error, herror, rfl⟩ := Outcome.exists_error_of_told hlast hfailure
      exact hstep.namesPath herror
  cases hexec : exec (traversal.settle outcome)
      (state.afterWork traversal.settings outcome next) with
  | mk result last =>
      rw [hexec] at htold
      cases result with
      | error e => exact htold
      | ok _ =>
          refine ⟨htold, ?_⟩
          intro failure hfailure
          have hsummary := (traversal.summary_exec_settle (by rw [hexec])).1
          rw [hexec] at hsummary
          rw [hsummary, Summary.failures_count] at hfailure
          rcases List.mem_append.1 hfailure with hbefore | hlast
          · exact hstate.recorded failure hbefore
          · obtain ⟨error, herror, rfl⟩ := List.mem_map.1 hlast
            exact hstep.namesPath (Option.mem_toList.1 herror)

/-- What a run tells of failures names their paths, however it ends. -/
theorem namesPath_completeTree {σ : Type} (settings : Settings) (reporter : Reporter σ)
    (memory : σ) (disk : Disk) :
    let run := completeTree settings reporter memory disk
    (∀ summary, run.result = .ok summary → ∀ failure ∈ summary.failures, failure.NamesPath) ∧
      ∀ callback ∈ run.final.callbacks, ∀ failure ∈ callback.failures, failure.NamesPath := by
  intro run
  have hstart : (RunState.initial settings memory disk).NamesPaths := by
    refine ⟨?_, ?_⟩
    · intro callback hcallback
      cases hcallback
    · intro failure hfailure
      cases hfailure
  have hsteps (traversal : Traversal σ) (state : RunState σ) (outcome : Outcome) (next : Disk)
      (hsettings : traversal.settings = settings) (_ : traversal.reporter = reporter)
      (hstate : state.NamesPaths) (hstep : Step settings state.disk outcome next) :
      Ends RunState.NamesPaths
        (fun _ last =>
          ∀ callback ∈ last.callbacks, ∀ failure ∈ callback.failures, failure.NamesPath)
        (exec (traversal.settle outcome) (state.afterWork settings outcome next)) := by
    subst hsettings
    exact Traversal.namesPaths_settle hstate hstep
  have hfailed {e : RunError} (hresult : run.result = .error e) (summary : Summary)
      (hsummary : run.result = .ok summary) : ∀ failure ∈ summary.failures, failure.NamesPath := by
    rw [hresult] at hsummary
    cases hsummary
  rcases completeTree_cases hsteps hstart with
    ⟨hfinal, e, hresult⟩ | ⟨e, hresult, htold⟩ | ⟨state, hstate, hfinal, hresult⟩
  · refine ⟨hfailed hresult, ?_⟩
    rw [show run.final = _ from hfinal]
    exact hstart.told
  · exact ⟨hfailed hresult, htold⟩
  · refine ⟨?_, ?_⟩
    · intro summary hsummary
      have hsame := TreeRun.ReportedFrom.eq_of_ok ⟨hfinal, hresult⟩ hsummary
      exact hsame ▸ hstate.recorded
    · intro callback hcallback
      rw [hfinal, RunState.callbacks_told] at hcallback
      rcases List.mem_append.1 hcallback with hbefore | hlast
      · exact hstate.told callback hbefore
      · rw [List.mem_singleton.1 hlast]
        exact hstate.recorded

/-- The path of an error and its wording name the same thing.  If an error has a path, its wording
names that path first: only words of its own and numbers of lines come before it.  An error of a
walk has a path exactly if one comes next below line numbers and depths.  So every failure that a
run tells of, in its result or to its reporter, has a path, and its wording names it first. -/
theorem named_path :
    (∀ (error : RunError) (path : Path), error.path? = some path →
      TellsFirst error.ownWords path error.message) ∧
    (∀ (cause : WalkError) (path : Path), (RunError.walk cause).path? = some path ↔
      ∃ layers inner, cause = WalkError.wrapped layers (.withPath path inner)) ∧
    ∀ (σ : Type) (settings : Settings) (reporter : Reporter σ) (memory : σ) (disk : Disk),
      let run := completeTree settings reporter memory disk
      (∀ summary, run.result = .ok summary → ∀ failure ∈ summary.failures, failure.NamesPath) ∧
        ∀ callback ∈ run.final.callbacks, ∀ failure ∈ callback.failures, failure.NamesPath := by
  refine ⟨?_, ?_, ?_⟩
  · intro error path h
    exact RunError.tellsFirst h
  · intro cause path
    exact WalkError.path?_eq_some_iff
  · intro σ settings reporter memory disk
    exact namesPath_completeTree settings reporter memory disk

/-- Of two paths the outer one is the error's, and it is the first that is told; among several
errors none is. -/
theorem named_path_nested :
    let inner : WalkError := .withPath (Path.ofString "b") (.io (.os .notFound))
    let error : RunError := .walk (.withLine 7 (.withDepth 2 (.withPath (Path.ofString "a") inner)))
    error.message = "walk error: line 7: a: b: No such file or directory (os error 2)" ∧
      error.path? = some (Path.ofString "a") ∧
      TellsFirst "walk error: " (Path.ofString "a") error.message ∧
      (RunError.walk (.several [inner])).path? ≠ some (Path.ofString "b") := by
  intro inner error
  obtain ⟨htells, hwalk, -⟩ := named_path
  refine ⟨by decide +kernel, rfl, htells error _ rfl, ?_⟩
  rw [Ne, hwalk]
  rintro ⟨layers, found, hwrapped⟩
  cases layers with
  | nil => cases hwrapped
  | cons layer layers => cases layer <;> cases hwrapped

end ExplicitImports
