import ExplicitImports.Proofs.Report.Kept

/-!
# Two runs side by side

Two runs that carry out the same visits can be compared step by step.  A step may be taken by
both, it may end both, or it may end the second run alone; the first one then goes on by itself.

* `RunM.SideBySide`, `sideBySide_forM` — what relates two runs after each step relates them after
  all of them.
* `Reporter.Follows` — a reporter that answers as another one does, up to a callback that it
  refuses for a cause of its own.
* `sideBySide_settle`, `sideBySide_visits` — runs that differ in such reporters alone, step by
  step and visit by visit.
* `completeTree_follows` — either these runs do the same, or the second one is the first one cut
  short.
-/

namespace ExplicitImports

open RunM

namespace RunM

variable {σ τ α : Type}

/-- How two runs stand after a step of both: they go on, or both were ended in it, or the second
one was ended while the first one may go on. -/
inductive SideBySide (inside : RunState σ → RunState τ → Prop)
    (ended : RunError → RunError → RunState σ → RunState τ → Prop)
    (cut : RunError → RunState σ → RunState τ → Prop) :
    Except RunError Unit × RunState σ → Except RunError Unit × RunState τ → Prop
  | going {first : RunState σ} {second : RunState τ} (h : inside first second) :
      SideBySide inside ended cut (.ok (), first) (.ok (), second)
  | ended {d e : RunError} {first : RunState σ} {second : RunState τ}
      (h : ended d e first second) :
      SideBySide inside ended cut (.error d, first) (.error e, second)
  | cut {result : Except RunError Unit} {e : RunError} {first : RunState σ}
      {second : RunState τ} (h : cut e first second) :
      SideBySide inside ended cut (result, first) (.error e, second)

/-- What each step does to both runs, all steps together do.  Of a run that was cut short, the
steps that the other one still takes must keep what there is to say. -/
theorem sideBySide_forM {inside : RunState σ → RunState τ → Prop}
    {ended : RunError → RunError → RunState σ → RunState τ → Prop}
    {cut : RunError → RunState σ → RunState τ → Prop} {f : α → RunM σ Unit} {g : α → RunM τ Unit}
    {items : List α}
    (hstep : ∀ item ∈ items, ∀ first second, inside first second →
      SideBySide inside ended cut (exec (f item) first) (exec (g item) second))
    (hlater : ∀ item ∈ items, ∀ e first second, cut e first second →
      cut e (exec (f item) first).2 second)
    {first : RunState σ} {second : RunState τ} (h : inside first second) :
    SideBySide inside ended cut (exec (items.forM f) first) (exec (items.forM g) second) := by
  induction items generalizing first second with
  | nil => exact .going h
  | cons item items ih =>
      have hitem := hstep item List.mem_cons_self first second h
      rw [exec_forM_cons, exec_forM_cons]
      cases hfirst : exec (f item) first with
      | mk result next =>
          cases hsecond : exec (g item) second with
          | mk other last =>
              rw [hfirst, hsecond] at hitem
              cases hitem with
              | going hnext =>
                  exact ih (fun other hother => hstep other (List.mem_cons_of_mem item hother))
                    (fun other hother => hlater other (List.mem_cons_of_mem item hother)) hnext
              | ended hended => exact .ended hended
              | @cut _ e _ _ hcut =>
                  cases result with
                  | error d => exact .cut hcut
                  | ok _ =>
                      -- The second run is over; the first one takes the rest of the steps alone.
                      let alone (next : RunState σ) : Prop := cut e next last
                      have hstart : alone next := hcut
                      exact .cut (exec_forM_keeps
                        (fun other hother state =>
                          hlater other (List.mem_cons_of_mem item hother) e state last) hstart)

end RunM

/-- The second reporter follows the first one while their memories are related: told the same, it
answers the same and the memories are related again, or else it refuses for this cause and has
lost the first one for good. -/
structure Reporter.Follows {σ τ : Type} (first : Reporter σ) (second : Reporter τ)
    (related lost : σ → τ → Prop) (cause : IoError) : Prop where
  tell : ∀ callback memory other, related memory other →
    ((second.tell callback other).1 = (first.tell callback memory).1 ∧
        related (first.tell callback memory).2 (second.tell callback other).2) ∨
      ((second.tell callback other).1 = .error cause ∧
        lost (first.tell callback memory).2 (second.tell callback other).2)
  later : ∀ callback memory other, lost memory other → lost (first.tell callback memory).2 other

/-- Two states in which the same has been done, with related memories of the reporters. -/
structure RunState.Twins {σ τ : Type} (related : σ → τ → Prop) (first : RunState σ)
    (second : RunState τ) : Prop where
  disk : second.disk = first.disk
  summary : second.summary = first.summary
  trace : second.trace = first.trace
  reporter : related first.reporter second.reporter

/-- The second run was ended by this error when its reporter refused the last thing that it was
told; the first one has done the same up to there. -/
structure RunState.CutShort {σ τ : Type} (lost : σ → τ → Prop) (cause : IoError)
    (error : RunError) (first : RunState σ) (second : RunState τ) : Prop where
  error_eq : error = .output cause
  last : ∃ before callback, second.trace = before ++ [.called callback]
  trace : second.trace <+: first.trace
  reporter : lost first.reporter second.reporter

namespace Traversal

/-- Two traversals that differ in their reporters alone, of which the second one follows the
first one. -/
structure Paired {σ τ : Type} (first : Traversal σ) (second : Traversal τ)
    (related lost : σ → τ → Prop) (cause : IoError) : Prop where
  settings : second.settings = first.settings
  ignored : second.ignored = first.ignored
  follows : first.reporter.Follows second.reporter related lost cause
  firstLeavesDisk : first.reporter.LeavesDisk
  secondLeavesDisk : second.reporter.LeavesDisk

namespace Paired

variable {σ τ : Type} {first : Traversal σ} {second : Traversal τ} {related lost : σ → τ → Prop}
  {cause : IoError} (hpair : first.Paired second related lost cause) {a : RunState σ}
  {b : RunState τ}

include hpair

/-- What both tell alike leaves them as they were to each other. -/
theorem twins_told (h : a.Twins related b) {callback : Callback}
    (hrelated : related (first.reporter.tell callback a.reporter).2
      (second.reporter.tell callback b.reporter).2) :
    (a.told first.reporter callback).Twins related (b.told second.reporter callback) := by
  have hfirst : (a.told first.reporter callback).disk = a.disk := hpair.firstLeavesDisk _ _
  have hsecond : (b.told second.reporter callback).disk = b.disk := hpair.secondLeavesDisk _ _
  refine ⟨?_, h.summary, congrArg (· ++ [Event.called callback]) h.trace, hrelated⟩
  rw [hfirst, hsecond, h.disk]

omit hpair in
/-- Where the second one loses the first one, it is cut short. -/
theorem cutShort_told (h : a.Twins related b) {callback : Callback}
    (hlost : lost (first.reporter.tell callback a.reporter).2
      (second.reporter.tell callback b.reporter).2) :
    RunState.CutShort lost cause (.output cause) (a.told first.reporter callback)
      (b.told second.reporter callback) := by
  have htrace : (b.told second.reporter callback).trace =
      (a.told first.reporter callback).trace :=
    congrArg (· ++ [Event.called callback]) h.trace
  exact ⟨rfl, ⟨b.trace, callback, rfl⟩, htrace ▸ List.prefix_refl _, hlost⟩

/-- Both tell the same, and both count it or neither does, unless the second one is cut short. -/
theorem sideBySide_tell_summarize (h : a.Twins related b) (callback : Callback)
    (update : Summary → Summary) :
    SideBySide (RunState.Twins related) (fun d e s t => e = d ∧ s.Twins related t)
      (RunState.CutShort lost cause)
      (exec (do first.tell callback; summarize update) a)
      (exec (do second.tell callback; summarize update) b) := by
  rw [exec_tell_summarize, exec_tell_summarize]
  rcases hpair.follows.tell callback a.reporter b.reporter h.reporter with
    ⟨hanswer, hrelated⟩ | ⟨hanswer, hlost⟩
  · have htold := hpair.twins_told h hrelated
    rw [hanswer]
    cases (first.reporter.tell callback a.reporter).1 with
    | error e => exact .ended ⟨rfl, htold⟩
    | ok _ => exact .going ⟨htold.disk, congrArg update h.summary, htold.trace, htold.reporter⟩
  · -- The first reporter may have accepted it or not.
    have hcut : RunState.CutShort lost cause (.output cause) _ _ := cutShort_told h hlost
    rw [hanswer]
    cases (first.reporter.tell callback a.reporter).1 with
    | error e => exact .cut hcut
    | ok _ => exact .cut ⟨hcut.error_eq, hcut.last, hcut.trace, hcut.reporter⟩

/-- What is done about an outcome is the same for both, unless the second one is cut short. -/
theorem sideBySide_settle (h : a.Twins related b) (outcome : Outcome) :
    SideBySide (RunState.Twins related) (fun d e s t => e = d ∧ s.Twins related t)
      (RunState.CutShort lost cause) (exec (first.settle outcome) a)
      (exec (second.settle outcome) b) := by
  cases herror : outcome.error? with
  | none =>
      cases outcome with
      | ignored path => exact .going h
      | unchanged path => exact .going h
      | fixed file => exact hpair.sideBySide_tell_summarize h _ _
      | unlisted path cause => cases herror
      | broken path tried error => cases herror
  | some error =>
      rw [settle_of_error? herror, settle_of_error? herror]
      cases hpolicy : first.settings.onFailure with
      | stop =>
          rw [exec_fail_of_stop hpolicy, exec_fail_of_stop (hpair.settings ▸ hpolicy)]
          exact .ended ⟨rfl, h⟩
      | goOn =>
          rw [exec_fail_eq_tell a hpolicy, exec_fail_eq_tell b (hpair.settings ▸ hpolicy)]
          apply hpair.sideBySide_tell_summarize
          exact ⟨h.disk, h.summary,
            congrArg (· ++ [Event.log (.skipping error.message)]) h.trace, h.reporter⟩

theorem sideBySide_perform (h : a.Twins related b) (visit : Visit) :
    SideBySide (RunState.Twins related) (fun d e s t => e = d ∧ s.Twins related t)
      (RunState.CutShort lost cause) (exec (first.perform visit) a)
      (exec (second.perform visit) b) := by
  rw [visit.exec_perform_eq_settle, visit.exec_perform_eq_settle, hpair.settings, h.disk]
  apply hpair.sideBySide_settle
  refine ⟨rfl, ?_, ?_, h.reporter⟩
  · simp only [RunState.afterWork, h.summary]
  · simp only [RunState.afterWork, h.trace]

/-- What was said of a run that was cut short stays true while the other one goes on. -/
theorem cutShort_perform {e : RunError} (h : a.CutShort lost cause e b) (visit : Visit) :
    RunState.CutShort lost cause e (exec (first.perform visit) a).2 b := by
  have hlonger := trace_le_perform hpair.firstLeavesDisk visit a
  refine ⟨h.error_eq, h.last, h.trace.trans hlonger, ?_⟩
  let stays (memory : σ) : Prop := lost memory b.reporter
  have hstays : stays a.reporter := h.reporter
  have hlater (callback : Callback) (memory : σ) (_ : ∀ summary, callback ≠ .done summary)
      (hmemory : stays memory) : stays (first.reporter.tell callback memory).2 :=
    hpair.follows.later callback memory _ hmemory
  rw [visit.exec_perform_eq_settle]
  exact remembers_settle _ _ hlater hstays

theorem sideBySide_visits (h : a.Twins related b) (visits : List Visit) :
    SideBySide (RunState.Twins related) (fun d e s t => e = d ∧ s.Twins related t)
      (RunState.CutShort lost cause) (exec (visits.forM first.perform) a)
      (exec (visits.forM second.perform) b) :=
  sideBySide_forM (fun visit _ _ _ htwins => hpair.sideBySide_perform htwins visit)
    (fun visit _ _ _ _ hcut => hpair.cutShort_perform hcut visit) h

/-- So it is when the summary is reported after the visits. -/
theorem follows_finish (h : a.Twins related b) :
    (exec second.finish b).1 = (exec first.finish a).1 ∧
        (exec first.finish a).2.Twins related (exec second.finish b).2 ∨
      ∃ e, (exec second.finish b).1 = .error e ∧
        RunState.CutShort lost cause e (exec first.finish a).2 (exec second.finish b).2 := by
  rw [exec_finish, exec_finish, h.summary]
  rcases hpair.follows.tell (.done a.summary) a.reporter b.reporter h.reporter with
    ⟨hanswer, hrelated⟩ | ⟨hanswer, hlost⟩
  · exact .inl ⟨by rw [hanswer], hpair.twins_told h hrelated⟩
  · exact .inr ⟨.output cause, by rw [hanswer]; rfl, cutShort_told h hlost⟩

/-- What was said of a run that was cut short stays true when the other one comes to its report. -/
theorem cutShort_finish {e : RunError} (h : a.CutShort lost cause e b) :
    RunState.CutShort lost cause e (exec first.finish a).2 b := by
  have hlonger := (onlyTold_finish hpair.firstLeavesDisk a).trace_le
  rw [exec_finish] at hlonger ⊢
  exact ⟨h.error_eq, h.last, h.trace.trans hlonger, hpair.follows.later _ _ _ h.reporter⟩

/-- So it is with visits and the report after them. -/
theorem follows_visits_finish (h : a.Twins related b) (visits : List Visit) :
    let x := exec (do visits.forM first.perform; first.finish) a
    let y := exec (do visits.forM second.perform; second.finish) b
    y.1 = x.1 ∧ x.2.Twins related y.2 ∨
      ∃ e, y.1 = .error e ∧ x.2.CutShort lost cause e y.2 := by
  intro x y
  have hvisits := hpair.sideBySide_visits h visits
  simp only [x, y, exec_bind]
  cases hfirst : exec (visits.forM first.perform) a with
  | mk result s =>
      cases hsecond : exec (visits.forM second.perform) b with
      | mk result' t =>
          rw [hfirst, hsecond] at hvisits
          cases hvisits with
          | going htwins => exact hpair.follows_finish htwins
          | ended htwins =>
              obtain ⟨rfl, htwins⟩ := htwins
              exact .inl ⟨rfl, htwins⟩
          | @cut _ e _ _ hcut =>
              cases result with
              | error d => exact .inr ⟨e, rfl, hcut⟩
              | ok _ => exact .inr ⟨e, rfl, hpair.cutShort_finish hcut⟩

end Paired

end Traversal

section Run

variable {σ τ : Type} {first : Reporter σ} {second : Reporter τ} {related lost : σ → τ → Prop}
  {cause : IoError}

/-- Two runs whose reporters follow each other do the same, or the second one ends with the
refusal of its reporter and has done what the first one did up to there. -/
theorem completeTree_follows (hfollows : first.Follows second related lost cause)
    (hfirst : first.LeavesDisk) (hsecond : second.LeavesDisk) {memory : σ} {other : τ}
    (hstart : related memory other) (settings : Settings) (disk : Disk) :
    let a := completeTree settings first memory disk
    let b := completeTree settings second other disk
    b.result = a.result ∧ a.final.Twins related b.final ∨
      ∃ e, b.result = .error e ∧ a.final.CutShort lost cause e b.final := by
  intro a b
  have hinitial : (RunState.initial settings memory disk).Twins related
      (.initial settings other disk) := ⟨rfl, rfl, rfl, hstart⟩
  cases hignored : Glob.parseAll settings.ignorePatterns with
  | error e =>
      simp only [a, b, completeTree_of_parseAll_error hignored]
      exact .inl ⟨trivial, hinitial⟩
  | ok ignored =>
      cases hkind : disk.stat settings.root with
      | error cause =>
          simp only [a, b, completeTree_of_stat_error hignored hkind]
          exact .inl ⟨trivial, hinitial⟩
      | ok kind =>
          let walk : Traversal σ := { settings, ignored, reporter := first }
          let walk' : Traversal τ := { settings, ignored, reporter := second }
          have hpair : walk.Paired walk' related lost cause :=
            ⟨rfl, rfl, hfollows, hfirst, hsecond⟩
          have hvisits : walk'.itinerary disk kind = walk.itinerary disk kind := by
            apply Traversal.itinerary_congr <;> rfl
          have hends := hpair.follows_visits_finish hinitial (walk.itinerary disk kind)
          simp only [a, b, completeTree_eq_visits hignored hfirst hkind,
            completeTree_eq_visits hignored hsecond hkind]
          rw [hvisits]
          exact hends

end Run

end ExplicitImports
