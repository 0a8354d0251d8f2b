import ExplicitImports.Proofs.Disk.Respelled
import ExplicitImports.Proofs.Walk.Scanned

/-!
# Which visits a walk makes

What a walk does with every entry that it meets, said without walking: a walk opens the root and
every directory below it that is listed as one and not ignored, it meets what is listed there, and
each entry is due for one visit at most.

* `Opened`, `Met` — which directories a walk opens and which entries it meets.
* `Visit.Due` — the visits that are due: a file is taken up, a name that is ignored is passed by,
  and a directory that cannot be listed is refused.
* `Traversal.mem_itinerary_iff` — a walk makes the visits that are due, and no others;
  `Traversal.eq_itinerary_iff` — it makes them in the order of their names.
-/

namespace ExplicitImports

/-- The path leads to a directory that can be listed, with this entry in it. -/
def Disk.Lists (disk : Disk) (path : Path) (name : Name) (kind : NodeKind) : Prop :=
  ∃ entries, disk.list path = .ok entries ∧ (name, kind) ∈ entries

/-- An entry of this type is a file, or a link that leads to a file if it leads anywhere. -/
def Disk.LeadsToFile (disk : Disk) (path : Path) (kind : NodeKind) : Prop :=
  kind = .file ∨ kind = .link ∧ ∀ found, disk.stat path = .ok found → found = .file

/-- The walk opens the directory that the names lead to: the root is a directory, and every name
on the way is not ignored and listed as the name of a directory. -/
structure Opened (settings : Settings) (disk : Disk) (names : List Name) : Prop where
  input : settings.root.isStandardInput = false
  root : disk.stat settings.root = .ok .dir
  listed : ∀ above name, above ++ [name] <+: names →
    ¬settings.Ignores name ∧ disk.Lists (settings.root.below above) name .dir

/-- The walk meets an entry of this type in a directory that it opens. -/
structure Met (settings : Settings) (disk : Disk) (above : List Name) (name : Name)
    (kind : NodeKind) : Prop where
  opened : Opened settings disk above
  listed : disk.Lists (settings.root.below above) name kind

/-- The visits that a walk has to make. -/
inductive Visit.Due (settings : Settings) (disk : Disk) : Visit → Prop
  /-- A root that is a file is taken up if its own name is selected. -/
  | root (hinput : settings.root.isStandardInput = false)
      (hroot : disk.stat settings.root = .ok .file)
      (hselected : settings.selects (Utf8.stringLossy settings.root.fileName) = true) :
      Due settings disk (.scan [])
  | scan {above : List Name} {name : Name} {kind : NodeKind}
      (hmet : Met settings disk above name kind) (hname : ¬settings.Ignores name)
      (hfile : disk.LeadsToFile (settings.root.below (above ++ [name])) kind)
      (hselected : settings.selects name.text = true) :
      Due settings disk (.scan (above ++ [name]))
  | passBy {above : List Name} {name : Name} {kind : NodeKind}
      (hmet : Met settings disk above name kind) (hname : settings.Ignores name) :
      Due settings disk (.passBy (above ++ [name]))
  | refuse {names : List Name} {cause : IoError} (hopened : Opened settings disk names)
      (hlist : disk.list (settings.root.below names) = .error cause) :
      Due settings disk (.refuse names cause)

namespace Disk

variable {disk : Disk} {path : Path} {name : Name} {kind : NodeKind}

/-- An entry is listed with one type. -/
theorem Lists.unique {other : NodeKind} (h : disk.Lists path name kind)
    (hother : disk.Lists path name other) : kind = other := by
  obtain ⟨entries, hentries, hmem⟩ := h
  obtain ⟨others, hothers, hmem'⟩ := hother
  rw [hentries] at hothers
  cases hothers
  obtain ⟨place, -, -, -, rfl⟩ := exists_of_list hentries
  rw [mem_entries_iff] at hmem hmem'
  exact Option.some.inj (hmem.symm.trans hmem')

theorem Lists.ne_error {cause : IoError} (h : disk.Lists path name kind) :
    disk.list path ≠ .error cause := by
  obtain ⟨entries, hentries, -⟩ := h
  rw [hentries]
  exact fun herror => nomatch herror

theorem nul_notMem_of_stat (h : disk.stat path = .ok kind) : 0 ∉ path.bytes := by
  intro hnul
  unfold stat resolveNode resolve at h
  rw [if_pos hnul] at h
  cases h

end Disk

theorem Traversal.leadsToFile_eq_true_iff {disk : Disk} {path : Path} {kind : NodeKind} :
    leadsToFile disk path kind = true ↔ disk.LeadsToFile path kind := by
  unfold Disk.LeadsToFile
  cases kind with
  | file => simp [leadsToFile]
  | dir => simp [leadsToFile]
  | pipe => simp [leadsToFile]
  | link =>
      unfold leadsToFile
      cases hstat : disk.stat path <;> simp

section Due

variable {settings : Settings} {disk : Disk} {names above : List Name} {name : Name}
  {kind : NodeKind} {visit : Visit}

namespace Opened

theorem of_le (h : Opened settings disk names) (hleads : above <+: names) :
    Opened settings disk above :=
  ⟨h.input, h.root, fun before name hbefore => h.listed before name (hbefore.trans hleads)⟩

theorem met (h : Opened settings disk names) (hleads : above ++ [name] <+: names) :
    Met settings disk above name .dir :=
  ⟨h.of_le ((List.prefix_append _ _).trans hleads), (h.listed above name hleads).2⟩

theorem not_ignores (h : Opened settings disk (above ++ [name])) : ¬settings.Ignores name :=
  (h.listed above name (List.prefix_refl _)).1

/-- A directory that is met and not ignored is opened. -/
theorem concat (h : Met settings disk above name .dir) (hname : ¬settings.Ignores name) :
    Opened settings disk (above ++ [name]) := by
  refine ⟨h.opened.input, h.opened.root, ?_⟩
  intro before other hbefore
  rcases List.prefix_concat_iff.1 hbefore with heq | hleads
  · obtain ⟨rfl, hlast⟩ := List.append_inj' heq rfl
    cases hlast
    exact ⟨hname, h.listed⟩
  · exact h.opened.listed before other hleads

end Opened

/-- What is met at or behind an entry: the entry is due for a visit itself, or it is a directory
that is opened. -/
inductive EntryCase (settings : Settings) (disk : Disk) (above : List Name) (name : Name) :
    Visit → Prop
  | scan {kind : NodeKind} (hmet : Met settings disk above name kind)
      (hname : ¬settings.Ignores name)
      (hfile : disk.LeadsToFile (settings.root.below (above ++ [name])) kind)
      (hselected : settings.selects name.text = true) :
      EntryCase settings disk above name (.scan (above ++ [name]))
  | passBy {kind : NodeKind} (hmet : Met settings disk above name kind)
      (hname : settings.Ignores name) :
      EntryCase settings disk above name (.passBy (above ++ [name]))
  | behind {visit : Visit} (hopened : Opened settings disk (above ++ [name])) :
      EntryCase settings disk above name visit

namespace Visit.Due

theorem input (h : visit.Due settings disk) : settings.root.isStandardInput = false := by
  cases h with
  | root hinput hroot hselected => exact hinput
  | scan hmet hname hfile hselected => exact hmet.opened.input
  | passBy hmet hname => exact hmet.opened.input
  | refuse hopened hlist => exact hopened.input

/-- A visit at or behind an entry is due for that entry, or the entry is a directory that is
opened. -/
theorem entryCase (h : visit.Due settings disk) (hleads : above ++ [name] <+: visit.names) :
    EntryCase settings disk above name visit := by
  cases h with
  | root hinput hroot hselected => simp [names] at hleads
  | scan hmet hname hfile hselected =>
      rcases List.prefix_concat_iff.1 hleads with heq | hbefore
      · obtain ⟨rfl, hlast⟩ := List.append_inj' heq rfl
        cases hlast
        exact .scan hmet hname hfile hselected
      · exact .behind (hmet.opened.of_le hbefore)
  | passBy hmet hname =>
      rcases List.prefix_concat_iff.1 hleads with heq | hbefore
      · obtain ⟨rfl, hlast⟩ := List.append_inj' heq rfl
        cases hlast
        exact .passBy hmet hname
      · exact .behind (hmet.opened.of_le hbefore)
  | refuse hopened hlist => exact .behind (hopened.of_le hleads)

theorem exists_met (h : visit.Due settings disk) (hleads : above ++ [name] <+: visit.names) :
    ∃ kind, Met settings disk above name kind := by
  cases h.entryCase hleads with
  | scan hmet hname hfile hselected => exact ⟨_, hmet⟩
  | passBy hmet hname => exact ⟨_, hmet⟩
  | behind hopened => exact ⟨_, hopened.met (List.prefix_refl _)⟩

/-- The visit that is due for a directory that is opened is its refusal. -/
theorem exists_error (h : visit.Due settings disk) (hopened : Opened settings disk visit.names) :
    ∃ cause, visit = .refuse visit.names cause ∧
      disk.list (settings.root.below visit.names) = .error cause := by
  cases h with
  | root hinput hroot hselected =>
      have hdir := hopened.root
      rw [hroot] at hdir
      cases hdir
  | scan hmet hname hfile hselected =>
      have hdir := hmet.listed.unique (hopened.met (List.prefix_refl _)).listed
      subst hdir
      rcases hfile with hfile | ⟨hlink, -⟩
      · cases hfile
      · cases hlink
  | passBy hmet hname => exact absurd hname hopened.not_ignores
  | refuse hopened hlist => exact ⟨_, rfl, hlist⟩

end Visit.Due

/-- A directory that is opened and cannot be listed is refused, and nothing is met behind it. -/
theorem Opened.mem_refuse_iff {cause : IoError} (h : Opened settings disk names)
    (hlist : disk.list (settings.root.below names) = .error cause) :
    visit ∈ [.refuse names cause] ↔ names <+: visit.names ∧ visit.Due settings disk := by
  rw [List.mem_singleton]
  constructor
  · rintro rfl
    exact ⟨List.prefix_refl _, .refuse h hlist⟩
  · rintro ⟨⟨rest, hrest⟩, hdue⟩
    cases rest with
    | nil =>
        rw [List.append_nil] at hrest
        subst hrest
        obtain ⟨other, hvisit, hother⟩ := hdue.exists_error h
        rw [hlist] at hother
        cases hother
        exact hvisit
    | cons name rest =>
        obtain ⟨kind, hmet⟩ := hdue.exists_met ⟨rest, by simpa using hrest⟩
        exact absurd hlist hmet.listed.ne_error

/-- What is due in a directory that is opened and listed is due at one of its entries or behind
one. -/
theorem Visit.Due.exists_entry {entries : List (Name × NodeKind)} (h : visit.Due settings disk)
    (hopened : Opened settings disk above)
    (hlist : disk.list (settings.root.below above) = .ok entries) (hleads : above <+: visit.names) :
    ∃ name kind, (name, kind) ∈ entries ∧ above ++ [name] <+: visit.names := by
  obtain ⟨rest, hrest⟩ := hleads
  cases rest with
  | nil =>
      rw [List.append_nil] at hrest
      subst hrest
      obtain ⟨cause, -, herror⟩ := h.exists_error hopened
      rw [hlist] at herror
      cases herror
  | cons name rest =>
      have hbehind : above ++ [name] <+: visit.names := ⟨rest, by simpa using hrest⟩
      obtain ⟨kind, -, others, hothers, hmem⟩ := h.exists_met hbehind
      rw [hlist] at hothers
      cases hothers
      exact ⟨name, kind, hmem, hbehind⟩

/-- Below a root that is no directory nothing is opened, so the root itself may be due and nothing
else. -/
theorem Visit.due_iff_of_not_dir (hinput : settings.root.isStandardInput = false)
    (hkind : disk.stat settings.root = .ok kind) (hdir : kind ≠ .dir) :
    visit.Due settings disk ↔ kind = .file ∧ visit = .scan [] ∧
      settings.selects (Utf8.stringLossy settings.root.fileName) = true := by
  have hclosed {names : List Name} : ¬Opened settings disk names := by
    intro hopened
    rw [hopened.root] at hkind
    cases hkind
    exact hdir rfl
  constructor
  · intro hdue
    cases hdue with
    | root hinput hroot hselected =>
        rw [hroot] at hkind
        cases hkind
        exact ⟨rfl, rfl, hselected⟩
    | scan hmet hname hfile hselected => exact absurd hmet.opened hclosed
    | passBy hmet hname => exact absurd hmet.opened hclosed
    | refuse hopened hlist => exact absurd hopened hclosed
  · rintro ⟨rfl, rfl, hselected⟩
    exact .root hinput hkind hselected

namespace Met

variable (h : Met settings disk above name kind)

include h

/-- A name that is met and ignored is passed by, and nothing is due behind it. -/
theorem due_iff_of_ignores (hname : settings.Ignores name) :
    above ++ [name] <+: visit.names ∧ visit.Due settings disk ↔
      visit = .passBy (above ++ [name]) := by
  constructor
  · rintro ⟨hleads, hdue⟩
    cases hdue.entryCase hleads with
    | scan hmet hkept hfile hselected => exact absurd hname hkept
    | passBy hmet hname => rfl
    | behind hopened => exact absurd hname hopened.not_ignores
  · rintro rfl
    exact ⟨List.prefix_refl _, .passBy h hname⟩

/-- Behind an entry that is no directory nothing is due. -/
theorem due_iff_of_not_dir (hname : ¬settings.Ignores name) (hdir : kind ≠ .dir) :
    above ++ [name] <+: visit.names ∧ visit.Due settings disk ↔
      visit = .scan (above ++ [name]) ∧
        disk.LeadsToFile (settings.root.below (above ++ [name])) kind ∧
        settings.selects name.text = true := by
  constructor
  · rintro ⟨hleads, hdue⟩
    cases hdue.entryCase hleads with
    | scan hother hkept hfile hselected =>
        cases h.listed.unique hother.listed
        exact ⟨rfl, hfile, hselected⟩
    | passBy hmet hignores => exact absurd hignores hname
    | behind hopened =>
        exact absurd (h.listed.unique (hopened.met (List.prefix_refl _)).listed) hdir
  · rintro ⟨rfl, hfile, hselected⟩
    exact ⟨List.prefix_refl _, .scan h hname hfile hselected⟩

end Met

end Due

namespace Traversal

variable {σ : Type} {traversal : Traversal σ} {disk : Disk} {above : List Name} {visit : Visit}

section Members

variable (hignored : Glob.parseAll traversal.settings.ignorePatterns = .ok traversal.ignored)

include hignored

/-- The visits for an entry that is met are those that are due at it or behind it, if so it is with
a directory that is opened. -/
theorem mem_entryVisits_iff {inside : List Name → List Visit} {name : Name} {kind : NodeKind}
    (hmet : Met traversal.settings disk above name kind)
    (hinside : Opened traversal.settings disk (above ++ [name]) →
      (visit ∈ inside (above ++ [name]) ↔
        above ++ [name] <+: visit.names ∧ visit.Due traversal.settings disk)) :
    visit ∈ traversal.entryVisits disk inside above name kind ↔
      above ++ [name] <+: visit.names ∧ visit.Due traversal.settings disk := by
  unfold entryVisits
  simp only
  by_cases hpass : traversal.passesBy name = true
  · rw [if_pos hpass, List.mem_singleton,
      hmet.due_iff_of_ignores ((passesBy_iff hignored name).1 hpass)]
  · rw [if_neg hpass]
    have hname := mt (passesBy_iff hignored name).2 hpass
    by_cases hdir : kind = .dir
    · subst hdir
      rw [if_pos rfl]
      exact hinside (Opened.concat hmet hname)
    · rw [if_neg hdir, hmet.due_iff_of_not_dir hname hdir, ← leadsToFile_eq_true_iff,
        ← Bool.and_eq_true]
      split
      · rename_i htaken
        simp [htaken]
      · rename_i hleft
        simp [hleft]

/-- The visits in a directory that is opened are those that are due at it or behind it.  A path
that can be listed is shorter than the limit, and every name makes it longer, so the levels that
are left always suffice. -/
theorem mem_visits_iff {levels : Nat}
    (habove : Opened traversal.settings disk above)
    (hlevels : Disk.pathLimit ≤ levels + (traversal.settings.root.below above).bytes.length) :
    visit ∈ traversal.visits disk levels above ↔
      above <+: visit.names ∧ visit.Due traversal.settings disk := by
  induction levels generalizing above with
  | zero =>
      -- A walk that has no level left stands at a path that is too long.
      have hlong : Disk.pathLimit ≤ (traversal.settings.root.below above).bytes.length := by omega
      have hnul := mt (traversal.settings.root.nul_mem_below above).1
        (Disk.nul_notMem_of_stat habove.root)
      exact habove.mem_refuse_iff (Disk.list_of_pathLimit_le hnul hlong)
  | succ levels ih =>
      unfold visits
      cases hlist : disk.list (traversal.settings.root.below above) with
      | error cause => exact habove.mem_refuse_iff hlist
      | ok entries =>
          have hentry {name : Name} {kind : NodeKind} (hmem : (name, kind) ∈ entries) :
              visit ∈ traversal.entryVisits disk (traversal.visits disk levels) above name kind ↔
                above ++ [name] <+: visit.names ∧ visit.Due traversal.settings disk := by
            apply mem_entryVisits_iff hignored ⟨habove, entries, hlist, hmem⟩
            intro hopened
            -- One level less is made up for by the name, which has a byte at least.
            have hlonger := (traversal.settings.root.below above).length_lt_length_join name.valid.1
            rw [← Path.below_concat] at hlonger
            exact ih hopened (by omega)
          simp only [List.mem_flatMap, Prod.exists]
          constructor
          · rintro ⟨name, kind, hmem, hvisit⟩
            obtain ⟨hleads, hdue⟩ := (hentry hmem).1 hvisit
            exact ⟨(List.prefix_append _ _).trans hleads, hdue⟩
          · rintro ⟨hleads, hdue⟩
            obtain ⟨name, kind, hmem, hbehind⟩ := hdue.exists_entry habove hlist hleads
            exact ⟨name, kind, hmem, (hentry hmem).2 ⟨hbehind, hdue⟩⟩

/-- A walk makes the visits that are due, and no others. -/
theorem mem_itinerary_iff {kind : NodeKind}
    (hkind : disk.stat traversal.settings.root = .ok kind) :
    visit ∈ traversal.itinerary disk kind ↔ visit.Due traversal.settings disk := by
  unfold itinerary
  simp only
  cases hinput : traversal.settings.root.isStandardInput with
  | true =>
      rw [if_pos rfl]
      refine iff_of_false List.not_mem_nil ?_
      intro hdue
      rw [hdue.input] at hinput
      cases hinput
  | false =>
      rw [if_neg Bool.false_ne_true]
      cases kind with
      | dir =>
          have hplace : Opened traversal.settings disk [] := ⟨hinput, hkind, by simp⟩
          have hmem : visit ∈ traversal.visits disk Disk.pathLimit [] ↔
              [] <+: visit.names ∧ visit.Due traversal.settings disk :=
            mem_visits_iff hignored hplace (Nat.le_add_right _ _)
          refine hmem.trans ?_
          exact and_iff_right List.nil_prefix
      | file =>
          rw [Visit.due_iff_of_not_dir hinput hkind (by simp)]
          simp only
          split
          · rename_i hselected
            simp [hselected]
          · rename_i hleft
            simp [hleft]
      | link =>
          rw [Visit.due_iff_of_not_dir hinput hkind (by simp)]
          simp
      | pipe =>
          rw [Visit.due_iff_of_not_dir hinput hkind (by simp)]
          simp

/-- There is one list of the visits that are due in the order of their names, the itinerary. -/
theorem eq_itinerary_iff {kind : NodeKind} {visits : List Visit}
    (hkind : disk.stat traversal.settings.root = .ok kind) :
    visits = traversal.itinerary disk kind ↔
      (visits.Pairwise fun a b => Precedes a.names b.names) ∧
        ∀ visit, visit ∈ visits ↔ visit.Due traversal.settings disk := by
  have hdue (visit : Visit) : visit ∈ traversal.itinerary disk kind ↔
      visit.Due traversal.settings disk := mem_itinerary_iff hignored hkind
  constructor
  · rintro rfl
    exact ⟨traversal.pairwise_itinerary kind, hdue⟩
  · rintro ⟨hordered, hmem⟩
    have hirrefl : Std.Irrefl fun a b : Visit => Precedes a.names b.names :=
      ⟨fun visit => Std.Irrefl.irrefl (r := Precedes) visit.names⟩
    have hantisymm : Std.Antisymm fun a b : Visit => Precedes a.names b.names :=
      ⟨fun _ _ hab hba => absurd hba (List.lt_asymm hab)⟩
    apply hordered.eq_of_mem_iff (traversal.pairwise_itinerary kind)
    intro visit
    rw [hmem, hdue]

end Members

end Traversal

end ExplicitImports
