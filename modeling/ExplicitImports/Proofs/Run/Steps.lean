import ExplicitImports.Run.Tree

/-!
# What the steps of a run do

Every step of a walk is a file taken up, a name noted down as ignored, or a failure.
This module says of each what it does to the state of the run:

* `exec_scan` — a file is taken up by the work on it, and by what is done about its
  outcome afterwards.
* `RunState.OnlyTold` — all that is done about an outcome or a failure: the reporter is
  told, and a failure is noted down.
* `exec_fail_of_goOn`, `exec_conclude_of_goOn` — where failures are passed over and the
  reporter refuses nothing, no step ends the run.

Steps are taken one after another by `List.forM`; `exec_forM_keeps`,
`exec_forM_ok` and `exec_forM_flatMap` carry what holds of one step over to a list of them.
-/

namespace ExplicitImports

namespace RunM

variable {σ α β : Type}

section Bind

variable {first : RunM σ α} {rest : α → RunM σ β} {state : RunState σ}

/-- If two steps end well the first one did, and the second one went on from there. -/
theorem exists_of_exec_bind {last : β} (h : (exec (first >>= rest) state).1 = .ok last) :
    ∃ value next, exec first state = (.ok value, next) ∧
      exec (first >>= rest) state = exec (rest value) next := by
  rw [exec_bind] at h ⊢
  cases hexec : exec first state with
  | mk result next =>
      rw [hexec] at h
      cases result with
      | error e => cases h
      | ok value => exact ⟨value, next, rfl, rfl⟩

/-- What the first step keeps and the next one too, both together keep. -/
theorem exec_bind_keeps {keeps : RunState σ → Prop} (hfirst : keeps (exec first state).2)
    (hrest : ∀ value next, keeps next → keeps (exec (rest value) next).2) :
    keeps (exec (first >>= rest) state).2 := by
  rw [exec_bind]
  cases hexec : exec first state with
  | mk result next =>
      rw [hexec] at hfirst
      cases result with
      | error e => exact hfirst
      | ok value => exact hrest value next hfirst

/-- Where neither step ends the run, both together do not. -/
theorem exec_bind_ok {value : α} {last : β} (hfirst : (exec first state).1 = .ok value)
    (hrest : ∀ next, (exec (rest value) next).1 = .ok last) :
    (exec (first >>= rest) state).1 = .ok last := by
  rw [exec_bind]
  cases hexec : exec first state with
  | mk result next =>
      rw [hexec] at hfirst
      cases hfirst
      exact hrest next

end Bind

section ForM

variable {step : α → RunM σ Unit} {items : List α} {state : RunState σ}

theorem exec_forM_singleton (step : α → RunM σ Unit) (item : α) (state : RunState σ) :
    exec ([item].forM step) state = exec (step item) state := by
  rw [exec_forM_cons]
  cases exec (step item) state with
  | mk result next => cases result <;> rfl

/-- Steps for one list after another are steps for both. -/
theorem exec_forM_append (step : α → RunM σ Unit) (first rest : List α) (state : RunState σ) :
    exec ((first ++ rest).forM step) state = match exec (first.forM step) state with
      | (.ok (), next) => exec (rest.forM step) next
      | (.error e, next) => (.error e, next) := by
  rw [List.forM_eq_forM, List.forM_append, exec_bind]
  cases exec (forM first step) state with
  | mk result next => cases result <;> rfl

/-- What every step keeps, all steps together keep. -/
theorem exec_forM_keeps {keeps : RunState σ → Prop}
    (hstep : ∀ item ∈ items, ∀ state, keeps state → keeps (exec (step item) state).2)
    (h : keeps state) : keeps (exec (items.forM step) state).2 := by
  induction items generalizing state with
  | nil => exact h
  | cons item items ih =>
      rw [List.forM_eq_forM, List.forM_cons]
      apply exec_bind_keeps (hstep item (by simp) state h)
      intro _ next hnext
      exact ih (fun other hother => hstep other (by simp [hother])) hnext

/-- Steps that end no run do not end it together. -/
theorem exec_forM_ok (hstep : ∀ item ∈ items, ∀ state, (exec (step item) state).1 = .ok ()) :
    (exec (items.forM step) state).1 = .ok () := by
  induction items generalizing state with
  | nil => rfl
  | cons item items ih =>
      rw [List.forM_eq_forM, List.forM_cons]
      apply exec_bind_ok (hstep item (by simp) state)
      intro next
      exact ih fun other hother => hstep other (by simp [hother])

/-- One may take several steps for an item where another takes one, if they do the same
in every state that the steps can lead to. -/
theorem exec_forM_flatMap {keeps : RunState σ → Prop} {expand : α → List β}
    {perform : β → RunM σ Unit}
    (hperform : ∀ item state, keeps state → keeps (exec (perform item) state).2)
    (hstep : ∀ item ∈ items, ∀ state, keeps state →
      exec (step item) state = exec ((expand item).forM perform) state) (h : keeps state) :
    exec (items.forM step) state = exec ((items.flatMap expand).forM perform) state := by
  induction items generalizing state with
  | nil => rfl
  | cons item items ih =>
      -- The steps for the first item leave a state that the rest can start from.
      have hkeeps : keeps (exec ((expand item).forM perform) state).2 :=
        exec_forM_keeps (fun other _ => hperform other) h
      rw [List.flatMap_cons, exec_forM_append, exec_forM_cons, hstep item (by simp) state h]
      cases hexec : exec ((expand item).forM perform) state with
      | mk result next =>
          rw [hexec] at hkeeps
          cases result with
          | error e => rfl
          | ok _ => exact ih (fun other hother => hstep other (by simp [hother])) hkeeps

end ForM

end RunM

open RunM

/-- The file that an event says is taken up. -/
def Event.scanned? : Event → Option Path
  | .file (.log (.scanning path)) => some path
  | _ => none

/-- The work on a file takes up no other one. -/
theorem scanned?_of_mem_completeFile (settings : Settings) (path : Path) (disk : Disk) :
    ∀ event ∈ (completeFile settings path disk).events, (Event.file event).scanned? = none := by
  intro event hevent
  unfold completeFile at hevent
  split at hevent
  · simp only [List.mem_singleton] at hevent
    rw [hevent]
    rfl
  · dsimp only at hevent
    split at hevent
    · simp only [List.mem_cons, List.not_mem_nil, or_false] at hevent
      rcases hevent with rfl | rfl <;> rfl
    · split at hevent
      · simp only [List.mem_cons, List.not_mem_nil, or_false] at hevent
        rcases hevent with rfl | rfl <;> rfl
      · split at hevent
        · simp only [List.mem_cons, List.not_mem_nil, or_false] at hevent
          rcases hevent with rfl | rfl <;> rfl
        · simp only [List.mem_cons, List.not_mem_nil, or_false] at hevent
          rcases hevent with rfl | rfl | rfl <;> rfl

namespace RunState

variable {σ : Type}

/-- The files that were taken up, in order. -/
def scanned (state : RunState σ) : List Path :=
  state.trace.filterMap Event.scanned?

/-- From one state to another the reporter was told things and failures were noted
down, and nothing else was done. -/
structure OnlyTold (state next : RunState σ) : Prop where
  disk : next.disk = state.disk
  count : next.summary.scanned = state.summary.scanned
  trace : ∃ told, next.trace = state.trace ++ told ∧
    ∀ event, .file event ∈ told → ∃ message, event = .log (.skipping message)

namespace OnlyTold

variable {state next last : RunState σ}

theorem refl (state : RunState σ) : OnlyTold state state :=
  ⟨rfl, rfl, [], by simp, by simp⟩

theorem trans (h : OnlyTold state next) (h' : OnlyTold next last) : OnlyTold state last := by
  obtain ⟨told, htrace, hfile⟩ := h.trace
  obtain ⟨told', htrace', hfile'⟩ := h'.trace
  refine ⟨h'.disk.trans h.disk, h'.count.trans h.count, told ++ told', ?_, ?_⟩
  · rw [htrace', htrace, List.append_assoc]
  · intro event hevent
    rcases List.mem_append.1 hevent with hin | hin
    · exact hfile event hin
    · exact hfile' event hin

/-- Noting a failure down does no more. -/
theorem of_skipping (state : RunState σ) (message : String) :
    OnlyTold state { state with trace := state.trace ++ [.log (.skipping message)] } := by
  refine ⟨rfl, rfl, _, rfl, ?_⟩
  intro event hevent
  exact ⟨message, by simpa using hevent⟩

/-- No file is taken up meanwhile. -/
theorem scanned_eq (h : OnlyTold state next) : next.scanned = state.scanned := by
  obtain ⟨told, htrace, hfile⟩ := h.trace
  have hnone : told.filterMap Event.scanned? = [] := by
    rw [List.filterMap_eq_nil_iff]
    intro event hevent
    cases event with
    | called callback => rfl
    | file event =>
        obtain ⟨message, rfl⟩ := hfile event hevent
        rfl
  rw [scanned, htrace, List.filterMap_append, hnone, List.append_nil, scanned]

/-- No write happens meanwhile. -/
theorem wrote_mem_iff (h : OnlyTold state next) (path : Path) (complete : Bool) :
    .file (.wrote path complete) ∈ next.trace ↔ .file (.wrote path complete) ∈ state.trace := by
  obtain ⟨told, htrace, hfile⟩ := h.trace
  rw [htrace, List.mem_append, or_iff_left]
  intro htold
  obtain ⟨message, hmessage⟩ := hfile _ htold
  cases hmessage

theorem trace_le (h : OnlyTold state next) : state.trace <+: next.trace := by
  obtain ⟨told, htrace, -⟩ := h.trace
  exact ⟨told, htrace.symm⟩

end OnlyTold

end RunState

open RunState

namespace Traversal

variable {σ : Type} {traversal : Traversal σ}

/-- What is done about the outcome of a file after the work on it. -/
def conclude (traversal : Traversal σ) (path : Path) : Except RunError FileEffect → RunM σ Unit
  | .ok .unchanged => return
  | .ok (.completed imports) => do
      let file : Fix := { path, imports }
      traversal.tell (.fixed file)
      RunM.summarize (·.addFix file)
  | .error error => traversal.fail error

/-- The state right after the work on a file, before anything is done about it. -/
def worked (traversal : Traversal σ) (path : Path) (state : RunState σ) : RunState σ :=
  let run := completeFile traversal.settings path state.disk
  { state with
    disk := run.disk
    summary := state.summary.countScanned
    trace := state.trace ++ .log (.scanning path) :: run.events.map .file }

/-- A file is taken up in two parts: the work on it and what is done about it then. -/
theorem exec_scan (path : Path) (state : RunState σ) :
    exec (traversal.scan path) state =
      exec (traversal.conclude path (completeFile traversal.settings path state.disk).result)
        (traversal.worked path state) := by
  unfold scan
  rw [exec_bind, exec_summarize]
  simp only
  rw [exec_bind, exec_record]
  simp only
  rw [exec_bind, exec_disk]
  simp only
  rw [exec_bind, exec_modify]
  simp only [worked, List.append_assoc, List.singleton_append]
  cases (completeFile traversal.settings path state.disk).result with
  | error error => rfl
  | ok effect => cases effect <;> rfl

section OnlyTold

variable (hdisk : traversal.reporter.LeavesDisk)

include hdisk

theorem onlyTold_tell (callback : Callback) (state : RunState σ) :
    OnlyTold state (exec (traversal.tell callback) state).2 := by
  rw [exec_tell]
  refine ⟨hdisk callback state.disk, rfl, [.called callback], rfl, ?_⟩
  intro event hevent
  simp at hevent

theorem onlyTold_fail (error : RunError) (state : RunState σ) :
    OnlyTold state (exec (traversal.fail error) state).2 := by
  cases hpolicy : traversal.settings.onFailure with
  | stop =>
      rw [exec_fail_of_stop hpolicy]
      exact .refl state
  | goOn =>
      -- The failure is noted down, then told, then added to the summary.
      unfold fail
      rw [hpolicy]
      apply exec_bind_keeps (OnlyTold.of_skipping state error.message)
      intro _ noted hnoted
      apply exec_bind_keeps (hnoted.trans (onlyTold_tell hdisk _ noted))
      intro _ next hnext
      exact hnext.trans ⟨rfl, rfl, [], by simp, by simp⟩

theorem onlyTold_conclude (path : Path) (result : Except RunError FileEffect)
    (state : RunState σ) : OnlyTold state (exec (traversal.conclude path result) state).2 := by
  cases result with
  | error error => exact onlyTold_fail hdisk error state
  | ok effect =>
      cases effect with
      | unchanged => exact .refl state
      | completed imports =>
          apply exec_bind_keeps (onlyTold_tell hdisk _ state)
          intro _ next hnext
          exact hnext.trans ⟨rfl, rfl, [], by simp, by simp⟩

section Scan

variable (path : Path) (state : RunState σ)

theorem onlyTold_scan :
    OnlyTold (traversal.worked path state) (exec (traversal.scan path) state).2 := by
  rw [exec_scan]
  exact onlyTold_conclude hdisk path _ _

theorem disk_exec_scan :
    (exec (traversal.scan path) state).2.disk =
      (completeFile traversal.settings path state.disk).disk :=
  (onlyTold_scan hdisk path state).disk

theorem count_exec_scan :
    (exec (traversal.scan path) state).2.summary.scanned = state.summary.scanned + 1 :=
  (onlyTold_scan hdisk path state).count

/-- A file that is taken up is the next one that was. -/
theorem scanned_exec_scan :
    (exec (traversal.scan path) state).2.scanned = state.scanned ++ [path] := by
  have hwork : ((completeFile traversal.settings path state.disk).events.map Event.file).filterMap
      Event.scanned? = [] := by
    rw [List.filterMap_map, List.filterMap_eq_nil_iff]
    exact scanned?_of_mem_completeFile traversal.settings path state.disk
  have hpath : (Event.log (.scanning path)).scanned? = some path := rfl
  rw [(onlyTold_scan hdisk path state).scanned_eq, scanned, worked, List.filterMap_append,
    List.filterMap_cons_some hpath, hwork, scanned]

end Scan

end OnlyTold

section GoOn

variable (hpolicy : traversal.settings.onFailure = .goOn)
  (hreporter : traversal.reporter.NeverFails)

include hreporter

theorem exec_tell_of_neverFails (callback : Callback) (state : RunState σ) :
    (exec (traversal.tell callback) state).1 = .ok () := by
  rw [exec_tell]
  show (traversal.reporter.tell callback state.reporter).1.mapError RunError.output = .ok ()
  rw [hreporter callback state.reporter]
  rfl

include hpolicy

theorem exec_fail_of_goOn (error : RunError) (state : RunState σ) :
    (exec (traversal.fail error) state).1 = .ok () := by
  have hnoted : (exec (record [.log (.skipping error.message)]) state).1 = .ok () := rfl
  simp only [fail, hpolicy]
  apply exec_bind_ok hnoted
  intro noted
  apply exec_bind_ok (exec_tell_of_neverFails hreporter _ noted)
  intro next
  rfl

theorem exec_conclude_of_goOn (path : Path) (result : Except RunError FileEffect)
    (state : RunState σ) : (exec (traversal.conclude path result) state).1 = .ok () := by
  cases result with
  | error error => exact exec_fail_of_goOn hpolicy hreporter error state
  | ok effect =>
      cases effect with
      | unchanged => rfl
      | completed imports =>
          apply exec_bind_ok (exec_tell_of_neverFails hreporter _ state)
          intro next
          rfl

end GoOn

end Traversal

end ExplicitImports
