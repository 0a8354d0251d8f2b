import ExplicitImports.Proofs.Walk.Due

/-!
# The visits of any walk

A reporter may change the disk while it is told something, and then a walk cannot be planned from
the disk that it starts on.  Still it makes its visits one after another, in the order of their
names, and the settings say which names may be visited how.

* `Visit.Fits` — what the settings alone require of a visit.
* `Traversal.Makes` — what a step of a run has come to is what visits come to that fit and are in
  the order of their names; `exists_makes_forM` puts the entries of a directory together.
* `Traversal.exists_makes_walk` — every walk is made of such visits.
* `Traversal.exists_visits_walk` — with a reporter that leaves the disk alone, they are those that
  are due.
-/

namespace ExplicitImports

open RunM

/-- What the settings require of a visit: nothing is visited behind a name that is ignored, and
such a name itself is passed by; what is taken up is selected by its last name. -/
inductive Visit.Fits (settings : Settings) : Visit → Prop
  | scan {names : List Name} (hkept : ∀ name ∈ names, ¬settings.Ignores name)
      (hselected : settings.selects (settings.lastName names) = true) : Fits settings (.scan names)
  | passBy {above : List Name} {name : Name} (hkept : ∀ name ∈ above, ¬settings.Ignores name)
      (hname : settings.Ignores name) : Fits settings (.passBy (above ++ [name]))
  | refuse {names : List Name} {cause : IoError} (hkept : ∀ name ∈ names, ¬settings.Ignores name) :
      Fits settings (.refuse names cause)

theorem Opened.kept {settings : Settings} {disk : Disk} {names : List Name}
    (h : Opened settings disk names) : ∀ name ∈ names, ¬settings.Ignores name := by
  intro name hname
  obtain ⟨above, rest, rfl⟩ := List.append_of_mem hname
  exact (h.listed above name ⟨rest, by simp⟩).1

/-- A visit that is due fits. -/
theorem Visit.Due.fits {settings : Settings} {disk : Disk} {visit : Visit}
    (h : visit.Due settings disk) : visit.Fits settings := by
  cases h with
  | root hinput hroot hselected => exact .scan (by simp) hselected
  | scan hmet hname hfile hselected =>
      refine .scan (Settings.kept_concat hmet.opened.kept hname) ?_
      rw [settings.lastName_concat]
      exact hselected
  | passBy hmet hname => exact .passBy hmet.opened.kept hname
  | refuse hopened hlist => exact .refuse hopened.kept

namespace Traversal

variable {σ : Type} {traversal : Traversal σ} {state : RunState σ} {above : List Name}
  {visits : List Visit}

/-- What a step has come to from this state is what these visits come to.  They are made where the
names lead or behind, they fit, and they come in the order of their names. -/
structure Makes (traversal : Traversal σ) (ended : Except RunError Unit × RunState σ)
    (state : RunState σ) (above : List Name) (visits : List Visit) : Prop where
  ended_eq : ended = exec (visits.forM traversal.perform) state
  leads : ∀ visit ∈ visits, above <+: visit.names
  fits : ∀ visit ∈ visits, visit.Fits traversal.settings
  ordered : visits.Pairwise fun a b => Precedes a.names b.names

namespace Makes

theorem nil (state : RunState σ) (above : List Name) :
    traversal.Makes (.ok (), state) state above [] :=
  ⟨rfl, by simp, by simp, .nil⟩

theorem perform (state : RunState σ) {visit : Visit} (hfits : visit.Fits traversal.settings) :
    traversal.Makes (exec (traversal.perform visit) state) state visit.names [visit] := by
  refine ⟨by rw [exec_forM_singleton], ?_, ?_, List.pairwise_singleton _ _⟩
  · intro other hother
    rw [List.mem_singleton.1 hother]
  · intro other hother
    rwa [List.mem_singleton.1 hother]

end Makes

/-- The visits of a directory are those for its entries, one entry after another.  What they are
may depend on the state that the entries before have led to. -/
theorem exists_makes_forM {step : Name × NodeKind → RunM σ Unit}
    {entries : List (Name × NodeKind)}
    (hstep : ∀ entry ∈ entries, ∀ now, ∃ visits,
      traversal.Makes (exec (step entry) now) now (above ++ [entry.1]) visits)
    (hsorted : entries.Pairwise fun a b => a.1.bytes < b.1.bytes) (state : RunState σ) :
    ∃ visits, traversal.Makes (exec (entries.forM step) state) state above visits ∧
      ∀ visit ∈ visits, ∃ entry ∈ entries, above ++ [entry.1] <+: visit.names := by
  induction entries generalizing state with
  | nil => exact ⟨[], .nil state above, by simp⟩
  | cons entry entries ih =>
      obtain ⟨hfirst, hrest⟩ := List.pairwise_cons.1 hsorted
      obtain ⟨visits, hvisits⟩ := hstep entry (by simp) state
      have hleads : ∀ visit ∈ visits, above <+: visit.names := fun visit hvisit =>
        (List.prefix_append _ _).trans (hvisits.leads visit hvisit)
      have hentry : ∀ visit ∈ visits, ∃ other ∈ entry :: entries,
          above ++ [other.1] <+: visit.names := fun visit hvisit =>
        ⟨entry, List.mem_cons_self, hvisits.leads visit hvisit⟩
      cases hended : exec (visits.forM traversal.perform) state with
      | mk result next =>
          cases result with
          | error e =>
              -- The run is ended here, so nothing is visited for the entries that are left.
              refine ⟨visits, ⟨?_, hleads, hvisits.fits, hvisits.ordered⟩, hentry⟩
              rw [exec_forM_cons, hvisits.ended_eq, hended]
          | ok _ =>
              -- What is left is met in the state that this entry has led to.
              obtain ⟨more, hmore, hbehind⟩ :=
                ih (fun other hother => hstep other (by simp [hother])) hrest next
              have hlater : ∀ visit ∈ more, ∃ other ∈ entry :: entries,
                  above ++ [other.1] <+: visit.names := by
                intro visit hvisit
                obtain ⟨other, hother, hlead⟩ := hbehind visit hvisit
                exact ⟨other, List.mem_cons_of_mem _ hother, hlead⟩
              refine ⟨visits ++ more, ⟨?_, ?_, ?_, ?_⟩, ?_⟩
              · rw [exec_forM_cons, exec_forM_append, hvisits.ended_eq, hended]
                exact hmore.ended_eq
              · exact List.forall_mem_append.2 ⟨hleads, hmore.leads⟩
              · exact List.forall_mem_append.2 ⟨hvisits.fits, hmore.fits⟩
              · refine List.pairwise_append.2 ⟨hvisits.ordered, hmore.ordered, ?_⟩
                intro visit hvisit last hlast
                obtain ⟨other, hother, hlead⟩ := hbehind last hlast
                exact precedes_of_branch (hfirst other hother) (hvisits.leads visit hvisit) hlead
              · exact List.forall_mem_append.2 ⟨hentry, hlater⟩

section Walk

variable (hignored : Glob.parseAll traversal.settings.ignorePatterns = .ok traversal.ignored)

include hignored

/-- A walk of a directory is made of visits at it and behind it. -/
theorem exists_makes_walkDirectory (levels : Nat)
    (hkept : ∀ name ∈ above, ¬traversal.settings.Ignores name) (state : RunState σ) :
    ∃ visits, traversal.Makes
      (exec (traversal.walkDirectory levels (traversal.settings.root.below above)) state)
      state above visits := by
  induction levels generalizing above state with
  | zero => exact ⟨_, .perform state (.refuse hkept)⟩
  | succ levels ih =>
      unfold walkDirectory
      rw [exec_bind, exec_disk]
      simp only
      cases hlist : state.disk.list (traversal.settings.root.below above) with
      | error cause => exact ⟨_, .perform state (.refuse hkept)⟩
      | ok entries =>
          -- The names are in the order in which the disk lists them now, also if the reporter
          -- changes it between two of them.
          obtain ⟨there, -, -, -, rfl⟩ := Disk.exists_of_list hlist
          refine (exists_makes_forM ?_ (state.disk.pairwise_lt_entries there) state).imp
            fun visits hvisits => hvisits.1
          rintro ⟨name, kind⟩ - now
          simp only
          rw [← Path.below_concat]
          by_cases hpass : traversal.passesBy name = true
          · rw [if_pos hpass]
            have hname := (passesBy_iff hignored name).1 hpass
            exact ⟨_, .perform now (.passBy hkept hname)⟩
          · rw [if_neg hpass]
            have hname := mt (passesBy_iff hignored name).2 hpass
            have hbelow := Settings.kept_concat hkept hname
            by_cases hdir : kind = .dir
            · rw [if_pos hdir]
              exact ih hbelow now
            · rw [if_neg hdir, exec_bind, exec_disk]
              simp only
              split
              · rename_i htaken
                refine ⟨_, .perform now (.scan hbelow ?_)⟩
                rw [Settings.lastName_concat]
                exact (Bool.and_eq_true_iff.1 htaken).2
              · exact ⟨_, .nil now _⟩

/-- A walk is made of visits, whatever the reporter does meanwhile. -/
theorem exists_makes_walk (kind : NodeKind) (state : RunState σ) :
    ∃ visits, traversal.Makes (exec (traversal.walk kind) state) state [] visits := by
  have hkept : ∀ name ∈ ([] : List Name), ¬traversal.settings.Ignores name := by simp
  unfold walk
  simp only
  split
  · exact ⟨_, .nil state []⟩
  · cases kind with
    | dir => exact traversal.exists_makes_walkDirectory hignored Disk.pathLimit hkept state
    | file =>
        simp only
        split
        · rename_i hselected
          exact ⟨_, .perform state (.scan hkept hselected)⟩
        · exact ⟨_, .nil state []⟩
    | link => exact ⟨_, .nil state []⟩
    | pipe => exact ⟨_, .nil state []⟩

/-- With a reporter that leaves the disk alone, they are the visits that are due. -/
theorem exists_visits_walk {kind : NodeKind}
    (hkind : state.disk.stat traversal.settings.root = .ok kind) :
    ∃ visits, traversal.Makes (exec (traversal.walk kind) state) state [] visits ∧
      (traversal.reporter.LeavesDisk →
        ∀ visit, visit ∈ visits ↔ visit.Due traversal.settings state.disk) := by
  by_cases hdisk : traversal.reporter.LeavesDisk
  -- Then the walk can be planned, and the plan is what is due.
  · have hdue (visit : Visit) : visit ∈ traversal.itinerary state.disk kind ↔
        visit.Due traversal.settings state.disk := traversal.mem_itinerary_iff hignored hkind
    refine ⟨traversal.itinerary state.disk kind, ⟨?_, ?_, ?_, ?_⟩, fun _ => hdue⟩
    · exact traversal.exec_walk_eq_itinerary hdisk kind (.refl _)
    · exact fun visit _ => List.nil_prefix
    · exact fun visit hvisit => ((hdue visit).1 hvisit).fits
    · exact traversal.pairwise_itinerary kind
  · obtain ⟨visits, hvisits⟩ := traversal.exists_makes_walk hignored kind state
    exact ⟨visits, hvisits, fun h => absurd h hdisk⟩

end Walk

end Traversal

end ExplicitImports
