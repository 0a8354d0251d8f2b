import ExplicitImports.Proofs.Walk.Candidate

/-!
# What a walk takes up

The files of an itinerary against the candidates.  Both are told by the names that lead
to them, and a walk goes through these in order:

* `scan_mem_itinerary_iff` — the files of an itinerary are the candidates that are on a way
  that can be listed, so all of them where every directory can be (`Listable`).
* `pairwise_itinerary` — visits come in the order of their names, compared one by one by
  their bytes, which is not the order of whole paths' bytes.
* `scanned_completeTree` — a run that passes over failures takes up exactly the
  candidates, each once and in this order, whatever order the disk keeps its nodes in.
-/

namespace ExplicitImports

/-- Names are in order when at the first difference the bytes of one name come before
those of the other, or when the one list ends there. -/
def Precedes (a b : List Name) : Prop :=
  a.map Name.bytes < b.map Name.bytes

instance (a b : List Name) : Decidable (Precedes a b) :=
  inferInstanceAs (Decidable (a.map Name.bytes < b.map Name.bytes))

instance : Std.Irrefl Precedes :=
  ⟨fun names => List.lt_irrefl (names.map Name.bytes)⟩

instance : Std.Antisymm Precedes :=
  ⟨fun _ _ hab hba => absurd hba (List.lt_asymm hab)⟩

namespace Visit

/-- The names that lead to where a visit is made. -/
def names : Visit → List Name
  | scan names | passBy names | refuse names _ => names

theorem names_of_scanned? {visit : Visit} {names : List Name} (h : visit.scanned? = some names) :
    visit.names = names := by
  cases visit with
  | scan other => exact Option.some.inj h
  | passBy other => cases h
  | refuse other cause => cases h

end Visit

namespace Traversal

variable {σ : Type} {traversal : Traversal σ} {disk : Disk} {place : Location}

variable (traversal disk) in
/-- Of entries that are no directories and not passed by, those are taken up that lead to
files with one of the suffixes. -/
theorem flatMap_entryVisits (inside : List Name → List Visit) (above : List Name)
    (entries : List (Name × NodeKind))
    (h : ∀ entry ∈ entries, traversal.passesBy entry.1 = false ∧ entry.2 ≠ .dir) :
    (entries.flatMap fun (name, kind) => traversal.entryVisits disk inside above name kind) =
      (entries.filter fun (name, kind) =>
        leadsToFile disk (traversal.settings.root.below (above ++ [name])) kind &&
          traversal.settings.selects name.text).map fun (name, _) => .scan (above ++ [name]) := by
  induction entries with
  | nil => rfl
  | cons entry entries ih =>
      obtain ⟨hpass, hdir⟩ := h entry (by simp)
      rw [List.flatMap_cons, ih fun other hother => h other (by simp [hother]), List.filter_cons]
      unfold entryVisits
      simp only [hpass, hdir, Bool.false_eq_true, if_false]
      split <;> rfl

section Members

/-- Nothing is taken up behind a directory that cannot be listed. -/
theorem scan_mem_refuse_iff {settings : Settings} {above names : List Name} {cause : IoError}
    (hlist : disk.list (settings.root.below above) = .error cause) :
    .scan names ∈ [Visit.refuse above cause] ↔
      above <+: names ∧ names ≠ above ∧ Candidate settings disk place names ∧
        Accessible settings disk names := by
  refine iff_of_false (by simp) ?_
  rintro ⟨hleads, hne, -, hway⟩
  obtain ⟨entries, hentries⟩ := hway above hleads hne.symm
  rw [hlist] at hentries
  cases hentries

variable (hignored : Glob.parseAll traversal.settings.ignorePatterns = .ok traversal.ignored)

include hignored

/-- An entry accounts for the candidates behind it that are on a way that can be listed, if
a directory among the entries does. -/
theorem scan_mem_entryVisits_iff {inside : List Name → List Visit} {above names : List Name}
    {name : Name} {kind : NodeKind} (habove : Enters traversal.settings disk place above)
    (hopen : Accessible traversal.settings disk (above ++ [name]))
    (hkind : disk.kind? (place ++ (above ++ [name])) = some kind)
    (hinside : Enters traversal.settings disk place (above ++ [name]) →
      (.scan names ∈ inside (above ++ [name]) ↔ above ++ [name] <+: names ∧
        names ≠ above ++ [name] ∧ Candidate traversal.settings disk place names ∧
          Accessible traversal.settings disk names)) :
    .scan names ∈ traversal.entryVisits disk inside above name kind ↔
      above ++ [name] <+: names ∧ Candidate traversal.settings disk place names ∧
        Accessible traversal.settings disk names := by
  unfold entryVisits
  simp only
  by_cases hpass : traversal.passesBy name = true
  · rw [if_pos hpass]
    have hname := (passesBy_iff hignored name).1 hpass
    constructor
    · intro hmem
      simp at hmem
    · intro hboth
      obtain ⟨hleads, hcandidate, -⟩ := hboth
      exact absurd hname (hcandidate.kept name (hleads.subset (by simp)))
  · rw [if_neg hpass]
    have hname : ¬traversal.settings.Ignores name := fun h =>
      hpass ((passesBy_iff hignored name).2 h)
    by_cases hdir : kind = .dir
    · subst hdir
      have hlookup := Disk.kind?_eq_dir_iff.1 hkind
      rw [if_pos rfl, hinside (habove.concat hname hlookup)]
      refine and_congr_right fun _ => and_iff_right_of_imp ?_
      rintro ⟨hcandidate, -⟩ rfl
      exact hcandidate.lookup_ne_dir hlookup
    · have hlookup : disk.lookup (place ++ (above ++ [name])) ≠ some .dir := by
        intro h
        rw [Disk.kind?_eq_dir_iff.2 h] at hkind
        exact hdir (Option.some.inj hkind).symm
      -- Nothing is behind an entry that is no directory, so the entry itself is meant.
      have hself : above ++ [name] <+: names ∧ Candidate traversal.settings disk place names ∧
          Accessible traversal.settings disk names ↔ names = above ++ [name] ∧
            Candidate traversal.settings disk place (above ++ [name]) := by
        constructor
        · intro hboth
          obtain ⟨hleads, hcandidate, -⟩ := hboth
          have hnames := hcandidate.eq_of_behind hleads hlookup
          exact ⟨hnames, hnames ▸ hcandidate⟩
        · intro hself
          obtain ⟨rfl, hcandidate⟩ := hself
          exact ⟨List.prefix_refl _, hcandidate, hopen⟩
      rw [if_neg hdir, hself, habove.candidate_concat_iff hname, ← leadsToFile_iff hkind,
        ← Bool.and_eq_true]
      split
      · rename_i htaken
        simp [htaken]
      · rename_i hleft
        simp [hleft]

variable (hroot : disk.resolve traversal.settings.root = .ok place)

include hroot

/-- The files taken up from a directory on are the candidates behind it that are on a way
that can be listed.  A path that can be listed is shorter than the limit, and every name
makes it longer, so the levels that are left always suffice. -/
theorem scan_mem_visits_iff {levels : Nat} {above : List Name}
    (habove : Enters traversal.settings disk place above)
    (hopen : Accessible traversal.settings disk above)
    (hlevels : Disk.pathLimit ≤ levels + (traversal.settings.root.below above).bytes.length)
    (names : List Name) :
    .scan names ∈ traversal.visits disk levels above ↔
      above <+: names ∧ names ≠ above ∧ Candidate traversal.settings disk place names ∧
        Accessible traversal.settings disk names := by
  induction levels generalizing above with
  | zero =>
      -- With no levels left the path is at the limit, and cannot be listed.
      have hnul := mt (traversal.settings.root.nul_mem_below above).1
        (Disk.resolve_eq_ok_iff.1 hroot).1
      exact scan_mem_refuse_iff (Disk.list_of_pathLimit_le hnul (by omega))
  | succ levels ih =>
      unfold visits
      cases hentries : disk.list (traversal.settings.root.below above) with
      | error cause => exact scan_mem_refuse_iff hentries
      | ok entries =>
          have hplace := Disk.entries_of_list_below hroot habove.dirs hentries
          have hentry (name : Name) (kind : NodeKind)
              (hkind : disk.kind? (place ++ (above ++ [name])) = some kind) :
              .scan names ∈
                  traversal.entryVisits disk (traversal.visits disk levels) above name kind ↔
                above ++ [name] <+: names ∧ Candidate traversal.settings disk place names ∧
                  Accessible traversal.settings disk names := by
            have hway := hopen.concat hentries name
            apply scan_mem_entryVisits_iff hignored habove hway hkind
            intro henters
            have hlonger :=
              (traversal.settings.root.below above).length_lt_length_join name.valid.1
            rw [← Path.below_concat] at hlonger
            exact ih henters hway (by omega)
          subst hplace
          simp only [List.mem_flatMap, Prod.exists, Disk.mem_entries_iff, List.append_assoc]
          constructor
          · intro htaken
            obtain ⟨name, kind, hkind, hmem⟩ := htaken
            obtain ⟨hleads, hcandidate⟩ := (hentry name kind hkind).1 hmem
            refine ⟨(List.prefix_append _ _).trans hleads, ?_, hcandidate⟩
            rintro rfl
            have hlength := hleads.length_le
            rw [List.length_append, List.length_singleton] at hlength
            omega
          · intro hcandidates
            obtain ⟨⟨rest, rfl⟩, hne, hcandidate⟩ := hcandidates
            cases rest with
            | nil => simp at hne
            | cons name rest =>
                have hleads : above ++ [name] <+: above ++ name :: rest := ⟨rest, by simp⟩
                obtain ⟨kind, hkind⟩ := hcandidate.1.exists_entry hleads
                exact ⟨name, kind, hkind, (hentry name kind hkind).2 ⟨hleads, hcandidate⟩⟩

/-- The files of an itinerary are the candidates that are on a way that can be listed. -/
theorem scan_mem_itinerary_iff {node : Node} (hnode : disk.lookup place = some node)
    (hinput : traversal.settings.root.isStandardInput = false) (names : List Name) :
    .scan names ∈ traversal.itinerary disk node.kind ↔
      Candidate traversal.settings disk place names ∧
        Accessible traversal.settings disk names := by
  -- A root that is no directory is itself all that there is.
  have hself (hdir : node ≠ .dir) :
      Candidate traversal.settings disk place names ∧ Accessible traversal.settings disk names ↔
        names = [] ∧ (∃ data, node = .file data) ∧
          traversal.settings.selects (Utf8.stringLossy traversal.settings.root.fileName) =
            true := by
    rw [← candidate_iff_of_not_dir hroot hnode hdir]
    refine and_iff_left_of_imp ?_
    intro hcandidate
    rw [((candidate_iff_of_not_dir hroot hnode hdir).1 hcandidate).1]
    exact .nil
  unfold itinerary
  simp only [hinput, Bool.false_eq_true, if_false]
  cases node with
  | dir =>
      have habove : Enters traversal.settings disk place [] := by
        refine ⟨?_, by simp⟩
        intro above habove
        rw [List.prefix_nil.1 habove, List.append_nil, hnode]
      simp only [Node.kind]
      rw [scan_mem_visits_iff hignored hroot habove .nil (Nat.le_add_right _ _)]
      simp only [List.nil_prefix, true_and]
      apply and_iff_right_of_imp
      rintro ⟨hcandidate, -⟩ rfl
      exact hcandidate.lookup_ne_dir (by simpa using hnode)
  | file data =>
      simp only [Node.kind]
      rw [hself (by simp)]
      split
      · rename_i hselected
        simp [hselected]
      · rename_i hleft
        simp [hleft]
  | link target =>
      simp only [Node.kind]
      rw [hself (by simp)]
      simp
  | pipe =>
      simp only [Node.kind]
      rw [hself (by simp)]
      simp

/-- So they are the candidates where every directory that is entered can be listed. -/
theorem scan_mem_itinerary_iff_candidate {node : Node} (hnode : disk.lookup place = some node)
    (hinput : traversal.settings.root.isStandardInput = false)
    (hlist : Listable traversal.settings disk place) (names : List Name) :
    .scan names ∈ traversal.itinerary disk node.kind ↔
      Candidate traversal.settings disk place names :=
  (scan_mem_itinerary_iff hignored hroot hnode hinput names).trans
    (and_iff_left_of_imp fun hcandidate => hcandidate.accessible hlist)

end Members

section Order

theorem precedes_of_branch {above a b : List Name} {first last : Name}
    (hlt : first.bytes < last.bytes) (ha : above ++ [first] <+: a) (hb : above ++ [last] <+: b) :
    Precedes a b := by
  obtain ⟨rest, rfl⟩ := ha
  obtain ⟨rest', rfl⟩ := hb
  unfold Precedes
  simp only [List.map_append, List.append_assoc]
  apply List.append_left_lt
  exact List.cons_lt_cons_iff.2 (.inl hlt)

/-- The visits for an entry are made at the entry itself or behind it. -/
theorem prefix_of_mem_entryVisits {inside : List Name → List Visit} {above : List Name}
    {name : Name} {kind : NodeKind} {visit : Visit}
    (hinside : ∀ below, visit ∈ inside below → below <+: visit.names)
    (h : visit ∈ traversal.entryVisits disk inside above name kind) :
    above ++ [name] <+: visit.names := by
  unfold entryVisits at h
  simp only at h
  split at h
  · rw [List.mem_singleton.1 h]
    exact List.prefix_refl _
  · split at h
    · exact hinside _ h
    · split at h
      · rw [List.mem_singleton.1 h]
        exact List.prefix_refl _
      · cases h

/-- The visits of a directory are made at it or behind it. -/
theorem prefix_of_mem_visits {levels : Nat} {above : List Name} {visit : Visit}
    (h : visit ∈ traversal.visits disk levels above) : above <+: visit.names := by
  induction levels generalizing above with
  | zero =>
      rw [List.mem_singleton.1 h]
      exact List.prefix_refl _
  | succ levels ih =>
      unfold visits at h
      split at h
      · rw [List.mem_singleton.1 h]
        exact List.prefix_refl _
      · rw [List.mem_flatMap] at h
        obtain ⟨⟨name, kind⟩, -, hentry⟩ := h
        have hleads := prefix_of_mem_entryVisits (fun below hbelow => ih hbelow) hentry
        exact (List.prefix_append _ _).trans hleads

/-- The visits of a directory come in the order of their names. -/
theorem pairwise_visits (levels : Nat) (above : List Name) :
    (traversal.visits disk levels above).Pairwise fun a b => Precedes a.names b.names := by
  induction levels generalizing above with
  | zero => exact List.pairwise_singleton _ _
  | succ levels ih =>
      unfold visits
      split
      · exact List.pairwise_singleton _ _
      · rename_i entries hentries
        rw [List.pairwise_flatMap]
        -- Behind one entry the levels below are in order; two entries are told apart by
        -- their own names.
        constructor
        · rintro ⟨name, kind⟩ -
          unfold entryVisits
          simp only
          split
          · exact List.pairwise_singleton _ _
          · split
            · exact ih _
            · split
              · exact List.pairwise_singleton _ _
              · exact List.Pairwise.nil
        · obtain ⟨there, -, -, -, rfl⟩ := Disk.exists_of_list hentries
          apply (disk.pairwise_lt_entries there).imp
          rintro ⟨first, firstKind⟩ ⟨last, lastKind⟩ hlt a ha b hb
          exact precedes_of_branch hlt
            (prefix_of_mem_entryVisits (fun _ => prefix_of_mem_visits) ha)
            (prefix_of_mem_entryVisits (fun _ => prefix_of_mem_visits) hb)

/-- The visits of an itinerary come in the order of their names. -/
theorem pairwise_itinerary (kind : NodeKind) :
    (traversal.itinerary disk kind).Pairwise fun a b => Precedes a.names b.names := by
  unfold itinerary
  simp only
  split
  · exact List.Pairwise.nil
  · cases kind with
    | dir => exact pairwise_visits _ _
    | file =>
        simp only
        split
        · exact List.pairwise_singleton _ _
        · exact List.Pairwise.nil
    | link => exact List.Pairwise.nil
    | pipe => exact List.Pairwise.nil

theorem mem_filterMap_scanned?_iff {visits : List Visit} {names : List Name} :
    names ∈ visits.filterMap Visit.scanned? ↔ .scan names ∈ visits := by
  rw [List.mem_filterMap]
  constructor
  · intro hmem
    obtain ⟨visit, hvisit, hnames⟩ := hmem
    cases visit with
    | scan other =>
        cases hnames
        exact hvisit
    | passBy other => cases hnames
    | refuse other cause => cases hnames
  · intro h
    exact ⟨_, h, rfl⟩

/-- The files of an itinerary come in the order of their names. -/
theorem pairwise_scanned_itinerary (kind : NodeKind) :
    ((traversal.itinerary disk kind).filterMap Visit.scanned?).Pairwise Precedes := by
  apply (pairwise_itinerary kind).filterMap
  intro first last hlt a ha b hb
  rw [← Visit.names_of_scanned? ha, ← Visit.names_of_scanned? hb]
  exact hlt

end Order

end Traversal

/-- The files that a run takes up, in the order in which it does: a run that passes over
failures, with patterns that can be read, a root that exists and is not the standard
input, and directories that can be listed, takes up exactly the candidates, each once and
in the order of the names that lead to them.  In which order the disk keeps its nodes
makes no difference. -/
theorem scanned_completeTree {σ : Type} (settings : Settings) (reporter : Reporter σ)
    (memory : σ) (disk : Disk) (place : Location) (node : Node)
    (hpatterns : ∀ text ∈ settings.ignorePatterns, ∃ pattern, Glob.Pattern.parse text = .ok pattern)
    (hroot : disk.resolveNode settings.root = .ok (place, node))
    (hinput : settings.root.isStandardInput = false) (hpolicy : settings.onFailure = .goOn)
    (hreporter : reporter.NeverFails) (hdisk : reporter.LeavesDisk)
    (hlist : Listable settings disk place) :
    let run := completeTree settings reporter memory disk
    ∃ found : List (List Name),
      run.final.scanned = found.map settings.root.below ∧
      (∀ names, names ∈ found ↔ Candidate settings disk place names) ∧
      found.Pairwise Precedes ∧
      run.final.scanned.Nodup ∧
      (∃ summary, run.result = .ok summary ∧ summary.scanned = found.length) ∧
      ∀ other : Disk, other.cwd = disk.cwd → (∀ there, other.lookup there = disk.lookup there) →
        (∀ there, other.openAt there = disk.openAt there) →
        (completeTree settings reporter memory other).final.scanned = run.final.scanned := by
  intro run
  obtain ⟨ignored, hignored⟩ := exists_parseAll hpatterns
  obtain ⟨hresolve, hnode⟩ := Disk.resolveNode_eq_ok_iff.1 hroot
  have hkind : disk.stat settings.root = .ok node.kind := Disk.stat_of_resolveNode hroot
  let traversal : Traversal σ := { settings, ignored, reporter }
  let found := (traversal.itinerary disk node.kind).filterMap Visit.scanned?
  -- One itinerary serves every disk of this shape.
  have hscanned (other : Disk) (h : other.SameShape disk) :
      (completeTree settings reporter memory other).final.scanned =
          found.map settings.root.below ∧
        ∃ summary, (completeTree settings reporter memory other).result = .ok summary ∧
          summary.scanned = found.length := by
    have hother : other.stat settings.root = .ok node.kind := by rw [h.stat_eq, hkind]
    have hrun := scanned_completeTree_eq memory hdisk hreporter hpolicy hignored hother
    simp only [Traversal.itinerary_eq_of_sameShape _ h] at hrun
    exact hrun
  have hpairwise : found.Pairwise Precedes := Traversal.pairwise_scanned_itinerary _
  obtain ⟨hfound, hsummary⟩ := hscanned disk (.refl disk)
  refine ⟨found, hfound, ?_, hpairwise, ?_, hsummary, ?_⟩
  · intro names
    rw [Traversal.mem_filterMap_scanned?_iff]
    exact Traversal.scan_mem_itinerary_iff_candidate hignored hresolve hnode hinput hlist names
  · rw [hfound]
    refine List.Nodup.map settings.root.below_injective (hpairwise.imp ?_)
    rintro a b hab rfl
    exact Std.Irrefl.irrefl a hab
  · intro other hcwd hlookup hopen
    have hshape : other.SameShape disk := ⟨hcwd, hopen, fun there => by rw [hlookup]⟩
    rw [(hscanned other hshape).1, ← hfound]

section Sample

/-- A directory `d` with a link `r` to it.  Links in `d` lead to a file in it, out of it,
nowhere and back to `d`; `v` is there to be ignored. -/
def sampleDisk : Disk where
  nodes :=
    [("d", .dir), ("d/a", .dir), ("d/v", .dir),
      ("d/a/z.ts", .file (Utf8.ofString "import a from './a';\n")),
      ("d/a.ts", .link (Path.ofString "../x")),
      ("d/b.ts", .link (Path.ofString "a/z.ts")),
      ("d/c.ts", .link (Path.ofString "gone")),
      ("d/l.ts", .link (Path.ofString ".")),
      ("d/v/z.ts", .file (Utf8.ofString "import v from './v';\n")),
      ("r", .link (Path.ofString "d")),
      ("x", .file (Utf8.ofString "export * from './b';\n"))].map
      fun (path, node) => ((Path.ofString path).names, node)

def sampleSettings : Settings :=
  { root := Path.ofString "r", ignorePatterns := ["v"], onFailure := .goOn }

/-- Where the root of the sample leads. -/
def samplePlace : Location := (Path.ofString "d").names

theorem eq_ok_of_toOption {ε α : Type} {result : Except ε α} {value : α}
    (h : result.toOption = some value) : result = .ok value := by
  cases result with
  | error e => cases h
  | ok found =>
      cases h
      rfl

theorem resolveNode_sample :
    sampleDisk.resolveNode sampleSettings.root = .ok (samplePlace, .dir) := by
  rfl

/-- What the names lead to on the sample is one of its nodes. -/
theorem exists_of_lookup_sample {names : List Name} {node : Node}
    (h : sampleDisk.lookup (samplePlace ++ names) = some node) :
    ∃ entry ∈ sampleDisk.nodes, entry.1.drop 1 = names ∧ entry.2 = node := by
  have hne : samplePlace ≠ [] := by decide +kernel
  have hlength : samplePlace.length = 1 := by decide +kernel
  have hmem := Disk.mem_nodes_of_lookup (List.append_ne_nil_of_left_ne_nil hne names) h
  exact ⟨_, hmem, List.drop_left' hlength, rfl⟩

theorem listable_sample : Listable sampleSettings sampleDisk samplePlace := by
  intro names henters
  obtain ⟨⟨place, node⟩, hmem, rfl, rfl⟩ :=
    exists_of_lookup_sample (henters.dirs names (List.prefix_refl names))
  have hdirs : ∀ entry ∈ sampleDisk.nodes, entry.2 = .dir →
      (sampleDisk.resolveNode (sampleSettings.root.below (entry.1.drop 1))).toOption =
        some (entry.1, .dir) := by
    decide +kernel
  have hplace := hdirs _ hmem rfl
  exact ⟨_, Disk.list_of_resolveNode (eq_ok_of_toOption hplace) rfl⟩

/-- The candidates of the sample, in order. -/
def sampleCandidates : List (List Name) :=
  ["a/z.ts", "a.ts", "b.ts", "c.ts"].map fun path => (Path.ofString path).names

theorem candidate_sample_iff (names : List Name) :
    Candidate sampleSettings sampleDisk samplePlace names ↔ names ∈ sampleCandidates := by
  constructor
  · intro h
    have hnodes : ∀ entry ∈ sampleDisk.nodes,
        Candidate sampleSettings sampleDisk samplePlace (entry.1.drop 1) →
          entry.1.drop 1 ∈ sampleCandidates := by
      decide +kernel
    rcases h.file with ⟨data, hfile⟩ | ⟨target, hlink, -⟩
    · obtain ⟨entry, hmem, rfl, -⟩ := exists_of_lookup_sample hfile
      exact hnodes entry hmem h
    · obtain ⟨entry, hmem, rfl, -⟩ := exists_of_lookup_sample hlink
      exact hnodes entry hmem h
  · have hall : ∀ names ∈ sampleCandidates,
        Candidate sampleSettings sampleDisk samplePlace names := by
      decide +kernel
    exact hall names

/-- The byte order of whole paths would put `r/a.ts` first, but the directory `a` comes
before it by name. -/
theorem scanned_completeTree_sample :
    (completeTree sampleSettings .silent () sampleDisk).final.scanned =
      ["r/a/z.ts", "r/a.ts", "r/b.ts", "r/c.ts"].map Path.ofString := by
  have hpatterns : ∀ text ∈ sampleSettings.ignorePatterns,
      ∃ pattern, Glob.Pattern.parse text = .ok pattern := by
    intro text htext
    rw [List.mem_singleton.1 htext]
    exact ⟨[.char 'v'], eq_ok_of_toOption (by decide +kernel)⟩
  obtain ⟨found, hscanned, hfound, hpairwise, -, -, -⟩ :=
    scanned_completeTree sampleSettings .silent () sampleDisk samplePlace .dir hpatterns
      resolveNode_sample (by decide +kernel) rfl Reporter.silent_neverFails
      Reporter.silent_leavesDisk listable_sample
  have hsorted : sampleCandidates.Pairwise Precedes := by decide +kernel
  have heq : found = sampleCandidates := by
    apply hpairwise.eq_of_mem_iff hsorted
    intro names
    rw [hfound, candidate_sample_iff]
  rw [hscanned, heq]
  decide +kernel

/-- Entries by the texts of their names. -/
def sampleEntries (entries : List (String × NodeKind)) : List (Name × NodeKind) :=
  entries.flatMap fun (text, kind) => (Path.ofString text).names.map fun name => (name, kind)

/-- It is enough to look at the nodes of a disk to see what is listed in a directory of it. -/
theorem Disk.list_eq_of_nodes {disk : Disk} {path : Path} (place : Location)
    {entries : List (Name × NodeKind)}
    (hnode : (disk.resolveNode path).toOption = some (place, .dir)) (hopen : disk.Readable place)
    (hsorted : entries.Pairwise fun a b => a.1.bytes < b.1.bytes)
    (hfound : ∀ entry ∈ entries, disk.kind? (place ++ [entry.1]) = some entry.2)
    (hall : ∀ node ∈ disk.nodes, ∀ name ∈ node.1, node.1 = place ++ [name] →
      (name, node.2.kind) ∈ entries) :
    disk.list path = .ok entries := by
  have hentries : disk.entries place = entries := by
    apply entries_eq_of_mem_iff hsorted
    intro name kind
    constructor
    · intro hkind
      obtain ⟨node, hnode, rfl⟩ := kind?_eq_some_iff.1 hkind
      exact hall _ (mem_nodes_of_lookup (by simp) hnode) name (by simp) rfl
    · exact hfound (name, kind)
  rw [← hentries]
  exact list_of_resolveNode (eq_ok_of_toOption hnode) hopen

/-- The visits of the sample.  The link `l.ts` leads to a directory, so it is none of them. -/
def sampleVisits : List Visit :=
  sampleCandidates.map .scan ++ [.passBy (Path.ofString "v").names]

theorem itinerary_sample {σ : Type} {traversal : Traversal σ}
    (hroot : traversal.settings.root = sampleSettings.root)
    (hsuffixes : traversal.settings.suffixes = sampleSettings.suffixes)
    (hignored : traversal.ignored = [[.char 'v']]) :
    traversal.itinerary sampleDisk .dir = sampleVisits := by
  let sample : Traversal Unit :=
    { settings := sampleSettings, ignored := [[.char 'v']], reporter := .silent }
  have hsame : traversal.itinerary sampleDisk .dir = sample.itinerary sampleDisk .dir := by
    apply Traversal.itinerary_congr
    · exact hroot
    · exact hsuffixes
    · exact hignored
  -- Of the links one leads to a directory, and one nowhere.
  let links := sampleEntries [("a.ts", .link), ("b.ts", .link), ("c.ts", .link), ("l.ts", .link)]
  have hselected : (links.filter fun (name, kind) =>
      Traversal.leadsToFile sampleDisk (sample.settings.root.below ([] ++ [name])) kind &&
        sample.settings.selects name.text) =
      sampleEntries [("a.ts", .link), ("b.ts", .link), ("c.ts", .link)] := by
    decide +kernel
  have hroot : sampleDisk.list (sample.settings.root.below []) =
      .ok (sampleEntries [("a", .dir)] ++ links ++ sampleEntries [("v", .dir)]) := by
    apply Disk.list_eq_of_nodes samplePlace <;> decide +kernel
  have hinside : sampleDisk.list (sample.settings.root.below (Path.ofString "a").names) =
      .ok (sampleEntries [("z.ts", .file)]) := by
    apply Disk.list_eq_of_nodes (Path.ofString "d/a").names <;> decide +kernel
  have houter (inside : List Name → List Visit) :
      ((sampleEntries [("a", .dir)] ++ links ++ sampleEntries [("v", .dir)]).flatMap
        fun (name, kind) => sample.entryVisits sampleDisk inside [] name kind) =
      inside (Path.ofString "a").names ++
        (["a.ts", "b.ts", "c.ts"].map fun path => .scan (Path.ofString path).names) ++
        [.passBy (Path.ofString "v").names] := by
    have hdirectory : ((sampleEntries [("a", .dir)]).flatMap fun (name, kind) =>
        sample.entryVisits sampleDisk inside [] name kind) = inside (Path.ofString "a").names :=
      List.append_nil _
    have hlinks := sample.flatMap_entryVisits sampleDisk inside [] links (by decide +kernel)
    rw [List.flatMap_append, List.flatMap_append, hdirectory, hlinks, hselected]
    rfl
  have hinner : sample.visits sampleDisk 4095 (Path.ofString "a").names =
      [.scan (Path.ofString "a/z.ts").names] := by
    rw [Traversal.visits, hinside]
    rfl
  have hstart : sample.itinerary sampleDisk .dir = sample.visits sampleDisk (4095 + 1) [] := rfl
  rw [hsame, hstart, Traversal.visits, hroot]
  dsimp only
  rw [houter, hinner]
  rfl

/-- A run over the sample carries out its visits and reports the summary then. -/
theorem completeTree_sample {σ : Type} (settings : Settings) (reporter : Reporter σ) (memory : σ)
    (hdisk : reporter.LeavesDisk) (hroot : settings.root = sampleSettings.root)
    (hsuffixes : settings.suffixes = sampleSettings.suffixes)
    (hpatterns : settings.ignorePatterns = sampleSettings.ignorePatterns) :
    let traversal : Traversal σ := { settings, ignored := [[.char 'v']], reporter }
    let run := RunM.exec (do
      sampleVisits.forM traversal.perform
      traversal.finish) (.initial settings memory sampleDisk)
    completeTree settings reporter memory sampleDisk = { result := run.1, final := run.2 } := by
  intro traversal run
  let start : RunState σ := .initial settings memory sampleDisk
  have hignored : Glob.parseAll settings.ignorePatterns = .ok [[.char 'v']] := by
    rw [hpatterns]
    exact eq_ok_of_toOption (by decide +kernel)
  have hkind : start.disk.stat settings.root = .ok .dir := by
    rw [hroot]
    rfl
  have hrun := exec_runTree hdisk hignored hkind
  have hvisits : Traversal.itinerary { settings, ignored := [[.char 'v']], reporter }
      start.disk .dir = sampleVisits := itinerary_sample hroot hsuffixes rfl
  simp only [hvisits] at hrun
  have hcomplete : completeTree settings reporter memory sampleDisk =
      { result := (RunM.exec (runTree settings reporter) start).1
        final := (RunM.exec (runTree settings reporter) start).2 } := rfl
  rw [hcomplete, hrun]

/-- The summary of the sample: the link `r/b.ts` leads to a file that was fixed before, and
`r/c.ts` leads nowhere. -/
def sampleSummary : Summary where
  dryRun := false
  scanned := 4
  imports := 2
  fixed := ["r/a/z.ts", "r/a.ts"].map fun path => { path := Path.ofString path, imports := 1 }
  failures :=
    [{ path := some (Path.ofString "r/c.ts"),
       error := "r/c.ts: No such file or directory (os error 2)" }]

theorem result_completeTree_sample :
    (completeTree sampleSettings .silent () sampleDisk).result = .ok sampleSummary := by
  apply eq_ok_of_toOption
  rw [completeTree_sample sampleSettings .silent () Reporter.silent_leavesDisk rfl rfl rfl]
  decide +kernel

end Sample

end ExplicitImports
