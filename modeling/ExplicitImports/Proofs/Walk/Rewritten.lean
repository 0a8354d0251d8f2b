import ExplicitImports.Proofs.Walk.Scanned

/-!
# What a run leaves on the disk

A run writes to one file after another, by paths and links that may lead to the same file
or out of the tree that is walked.  Two facts make the outcome simple: writing to files
moves no path, and to complete a text twice is to complete it once.  So it does not matter
in which order and how often files are reached:

* `completedAt_of_exec_visits` — visits complete what their paths lead to, and nothing
  else.
* `lookup_final_completeTree` — after a run every file that a candidate leads to is
  completed, if it is a text, and every other node is the one that was there.
-/

namespace ExplicitImports

open RunM

theorem Node.kind_completed (settings : Settings) (node : Node) :
    (node.completed settings).kind = node.kind := by
  cases node with
  | file data =>
      cases htext : Utf8.decode? data with
      | none => simp only [completed, htext]
      | some text =>
          simp only [completed, htext]
          rfl
  | dir => rfl
  | link target => rfl
  | pipe => rfl

namespace Traversal

variable {σ : Type} {traversal : Traversal σ}

/-- The location is one that a file of the visits is found at, and can be read. -/
def Reaches (traversal : Traversal σ) (disk : Disk) (visits : List Visit) (there : Location) :
    Prop :=
  ∃ names, .scan names ∈ visits ∧
    disk.resolve (traversal.settings.root.below names) = .ok there ∧ disk.Readable there

theorem reaches_cons_iff {disk : Disk} {visit : Visit} {visits : List Visit} {there : Location} :
    traversal.Reaches disk (visit :: visits) there ↔
      traversal.Reaches disk [visit] there ∨ traversal.Reaches disk visits there := by
  unfold Reaches
  simp only [List.mem_cons, List.not_mem_nil, or_false, or_and_right, exists_or]

section Visits

variable (hdry : traversal.settings.dryRun = false) (hdisk : traversal.reporter.LeavesDisk)

include hdry hdisk

/-- A visit completes what its path leads to, if no write is given up. -/
theorem completedAt_perform (visit : Visit) (state : RunState σ)
    (hwrites : ∀ path,
      .file (.wrote path false) ∉ (exec (traversal.perform visit) state).2.trace) :
    state.disk.CompletedAt traversal.settings (traversal.Reaches state.disk [visit])
      (exec (traversal.perform visit) state).2.disk := by
  cases visit with
  | scan names =>
      let path := traversal.settings.root.below names
      have hwork : ∀ other,
          .wrote other false ∉ (completeFile traversal.settings path state.disk).events := by
        intro other hother
        have hworked : .file (.wrote other false) ∈ (traversal.worked path state).trace :=
          List.mem_append_right _ (List.mem_cons_of_mem _ (List.mem_map_of_mem hother))
        exact hwrites other ((onlyTold_scan hdisk path state).trace_le.subset hworked)
      have hplaces : traversal.Reaches state.disk [.scan names] =
          fun there => state.disk.resolve path = .ok there ∧ state.disk.Readable there := by
        ext there
        simp [Reaches, path]
      unfold perform
      rw [disk_exec_scan hdisk, hplaces]
      exact completedAt_completeFile hdry hwork
  | passBy names => exact .of_completed (by simp [Reaches])
  | refuse names cause =>
      unfold perform
      rw [(onlyTold_fail hdisk _ state).disk]
      exact .of_completed (by simp [Reaches])

/-- Visits complete what their paths lead to on the disk they start from, and change
nothing else. -/
theorem completedAt_of_exec_visits (hext : '\'' ∉ traversal.settings.extension.toList)
    {visits : List Visit} {state next : RunState σ}
    (h : exec (visits.forM traversal.perform) state = (.ok (), next))
    (hwrites : ∀ path, .file (.wrote path false) ∉ next.trace) :
    state.disk.CompletedAt traversal.settings (traversal.Reaches state.disk visits)
      next.disk := by
  induction visits generalizing state with
  | nil =>
      cases h
      exact .of_completed (by simp [Reaches])
  | cons visit visits ih =>
      rw [exec_forM_cons] at h
      cases hexec : exec (traversal.perform visit) state with
      | mk result between =>
          have hshape := sameShape_perform hdisk visit state
          have hfirst := completedAt_perform hdry hdisk visit state
          rw [hexec] at h hshape hfirst
          cases result with
          | error e => cases h
          | ok _ =>
              simp only at h
              have hlater := trace_le_visits hdisk visits between
              rw [h] at hlater
              have hbetween : ∀ path, .file (.wrote path false) ∉ between.trace :=
                fun path hpath => hwrites path (hlater.subset hpath)
              -- The writes so far have moved no path, so the rest leads where it did.
              have hsame : traversal.Reaches between.disk visits =
                  traversal.Reaches state.disk visits := by
                unfold Reaches
                simp only [hshape.resolve_eq, hshape.readable_iff]
              have hboth := (hfirst hbetween).trans hext (hsame ▸ ih h)
              simpa only [← reaches_cons_iff] using hboth

end Visits

/-- The disk takes every write, and no write was given up so far. -/
def Unlimited (state : RunState σ) : Prop :=
  state.disk.unbounded = true ∧ ∀ path, .file (.wrote path false) ∉ state.trace

theorem unlimited_perform (hdisk : traversal.reporter.LeavesDisk) (visit : Visit)
    {state : RunState σ} (h : Unlimited state) :
    Unlimited (exec (traversal.perform visit) state).2 := by
  cases visit with
  | scan names =>
      let path := traversal.settings.root.below names
      have htold := onlyTold_scan hdisk path state
      have hworked : Unlimited (traversal.worked path state) := by
        refine ⟨(unbounded_completeFile _ _ _).trans h.1, ?_⟩
        intro other hother
        unfold worked at hother
        simp only [List.mem_append, List.mem_cons, List.mem_map] at hother
        rcases hother with hbefore | hscanning | ⟨event, hevent, hsame⟩
        · exact h.2 other hbefore
        · cases hscanning
        · cases hsame
          exact wrote_notMem_completeFile h.1 _ path other hevent
      refine ⟨(congrArg Disk.unbounded htold.disk).trans hworked.1, ?_⟩
      intro other hother
      exact hworked.2 other ((htold.wrote_mem_iff other false).1 hother)
  | passBy names =>
      refine ⟨h.1, ?_⟩
      intro other hother
      rcases List.mem_append.1 hother with hbefore | hignored
      · exact h.2 other hbefore
      · simp at hignored
  | refuse names cause =>
      have htold := onlyTold_fail hdisk
        (listingError (traversal.settings.root.below names) cause) state
      refine ⟨(congrArg Disk.unbounded htold.disk).trans h.1, ?_⟩
      intro other hother
      exact h.2 other ((htold.wrote_mem_iff other false).1 hother)

end Traversal

/-- On a disk that takes every write no write is given up. -/
theorem wrote_notMem_completeTree {σ : Type} {settings : Settings} {reporter : Reporter σ}
    {memory : σ} {disk : Disk} {summary : Summary} (hdisk : reporter.LeavesDisk)
    (hlimit : disk.unbounded = true)
    (hresult : (completeTree settings reporter memory disk).result = .ok summary) (path : Path) :
    .file (.wrote path false) ∉ (completeTree settings reporter memory disk).final.trace := by
  obtain ⟨ignored, kind, next, -, -, hvisits, -, htold⟩ := exists_of_completeTree hdisk hresult
  let traversal : Traversal σ := { settings, ignored, reporter }
  have hstart : Traversal.Unlimited (.initial settings memory disk) :=
    ⟨hlimit, fun _ => List.not_mem_nil⟩
  have hstep : ∀ visit ∈ traversal.itinerary disk kind, ∀ state, Traversal.Unlimited state →
      Traversal.Unlimited (exec (traversal.perform visit) state).2 :=
    fun visit _ _ h => traversal.unlimited_perform hdisk visit h
  have hnext := exec_forM_keeps hstep hstart
  rw [hvisits] at hnext
  intro hwrote
  exact hnext.2 path ((htold.wrote_mem_iff path false).1 hwrote)

/-- Some candidate leads to the file at a location, itself or as a link; the file can be
read, and its bytes spell a text. -/
def CandidateText (settings : Settings) (disk : Disk) (place there : Location)
    (text : List Char) : Prop :=
  ∃ names old, Candidate settings disk place names ∧
    disk.resolveNode (settings.root.below names) = .ok (there, .file old) ∧
    disk.Readable there ∧ Utf8.decode? old = some text

/-- A candidate that is a file leads to itself, unless its path is too long for the disk. -/
theorem Candidate.candidateText_of_file {settings : Settings} {disk : Disk} {place : Location}
    {names : List Name} {old : Bytes} {text : List Char}
    (h : Candidate settings disk place names) (hroot : disk.resolve settings.root = .ok place)
    (hfile : disk.lookup (place ++ names) = some (.file old))
    (hlength : (settings.root.below names).bytes.length < Disk.pathLimit)
    (hopen : disk.Readable (place ++ names)) (htext : Utf8.decode? old = some text) :
    CandidateText settings disk place (place ++ names) text :=
  have hnode := Disk.resolveNode_below hroot h.dirs hfile (by simp [Node.kind]) hlength
  ⟨names, old, h, hnode, hopen, htext⟩

/-- Nodes at which no candidate has a text are complete from the start. -/
theorem completed_of_not_candidateText {settings : Settings} {disk : Disk}
    {place there : Location} {names : List Name} {node : Node}
    (hcandidate : Candidate settings disk place names)
    (hresolve : disk.resolve (settings.root.below names) = .ok there)
    (hnode : disk.lookup there = some node) (hopen : disk.Readable there)
    (h : ∀ text, ¬CandidateText settings disk place there text) :
    node.completed settings = node := by
  cases node with
  | file old =>
      cases htext : Utf8.decode? old with
      | none => simp only [Node.completed, htext]
      | some text =>
          have hold := Disk.resolveNode_eq_ok_iff.2 ⟨hresolve, hnode⟩
          exact absurd ⟨names, old, hcandidate, hold, hopen, htext⟩ (h text)
  | dir => rfl
  | link target => rfl
  | pipe => rfl

/-- What a run leaves on the disk.  A run that returns a summary, that is not dry and in
which no write was given up has completed the text of every file that a candidate leads
to and that can be read, however many of them lead there; every other node is the one that
was there, and no node has come, gone or changed its kind. -/
theorem lookup_final_completeTree {σ : Type} (settings : Settings) (reporter : Reporter σ)
    (memory : σ) (disk : Disk) (place : Location) (node : Node) (summary : Summary)
    (hdry : settings.dryRun = false) (hext : '\'' ∉ settings.extension.toList)
    (hinput : settings.root.isStandardInput = false) (hdisk : reporter.LeavesDisk)
    (hroot : disk.resolveNode settings.root = .ok (place, node))
    (hlist : Listable settings disk place)
    (hresult : (completeTree settings reporter memory disk).result = .ok summary)
    (hwrites : ∀ path, .file (.wrote path false) ∉
      (completeTree settings reporter memory disk).final.trace) :
    let final := (completeTree settings reporter memory disk).final.disk
    (∀ there text, CandidateText settings disk place there text →
      final.lookup there = some (.file (Utf8.encode (completeImports settings text).text))) ∧
    (∀ there, (∀ text, ¬CandidateText settings disk place there text) →
      final.lookup there = disk.lookup there) ∧
    ∀ there, final.kind? there = disk.kind? there := by
  intro final
  obtain ⟨ignored, kind, next, hignored, hkind, hvisits, -, htold⟩ :=
    exists_of_completeTree hdisk hresult
  obtain ⟨hresolve, hnode⟩ := Disk.resolveNode_eq_ok_iff.1 hroot
  have hstat : node.kind = kind :=
    Except.ok.inj ((Disk.stat_of_resolveNode hroot).symm.trans hkind)
  subst hstat
  let traversal : Traversal σ := { settings, ignored, reporter }
  have hscan (names : List Name) : .scan names ∈ traversal.itinerary disk node.kind ↔
      Candidate settings disk place names :=
    Traversal.scan_mem_itinerary_iff_candidate hignored hresolve hnode hinput hlist names
  have hnone : ∀ path, .file (.wrote path false) ∉ next.trace :=
    fun path hpath => hwrites path (htold.trace_le.subset hpath)
  -- What is reached are the ends of the candidates' paths, for these are what is scanned.
  have hcompleted : disk.CompletedAt settings
      (traversal.Reaches disk (traversal.itinerary disk node.kind)) final := by
    have hnext := traversal.completedAt_of_exec_visits hdry hdisk hext hvisits hnone
    rw [← htold.disk] at hnext
    exact hnext
  refine ⟨?_, ?_, ?_⟩
  · rintro there text ⟨names, old, hcandidate, hold, hopen, htext⟩
    obtain ⟨hthere, hfile⟩ := Disk.resolveNode_eq_ok_iff.1 hold
    rw [hcompleted.inside there ⟨names, (hscan names).2 hcandidate, hthere, hopen⟩, hfile]
    simp only [Option.map_some, Node.completed, htext]
  · intro there hothers
    by_cases hreached : traversal.Reaches disk (traversal.itinerary disk node.kind) there
    · rw [hcompleted.inside there hreached]
      obtain ⟨names, hmem, hthere, hopen⟩ := hreached
      cases hlookup : disk.lookup there with
      | none => rfl
      | some other =>
          have hcandidate := (hscan names).1 hmem
          rw [Option.map_some,
            completed_of_not_candidateText hcandidate hthere hlookup hopen hothers]
    · exact hcompleted.outside there hreached
  · intro there
    unfold Disk.kind?
    by_cases hreached : traversal.Reaches disk (traversal.itinerary disk node.kind) there
    · rw [hcompleted.inside there hreached, Option.map_map]
      congr 1
      funext other
      exact other.kind_completed settings
    · rw [hcompleted.outside there hreached]

/-- On the sample the file in the tree is reached by its own path and by a link, and
completed once; so is the file that a link leads to outside.  What is ignored stays. -/
theorem lookup_final_completeTree_sample :
    let final := (completeTree sampleSettings .silent () sampleDisk).final.disk
    final.lookup (Path.ofString "d/a/z.ts").names =
        some (.file (Utf8.ofString "import a from './a.js';\n")) ∧
      final.lookup (Path.ofString "x").names =
        some (.file (Utf8.ofString "export * from './b.js';\n")) ∧
      final.lookup (Path.ofString "d/v/z.ts").names =
        some (.file (Utf8.ofString "import v from './v';\n")) ∧
      ∀ there, final.kind? there = sampleDisk.kind? there := by
  intro final
  have hignored : Glob.parseAll sampleSettings.ignorePatterns = .ok [[.char 'v']] :=
    eq_ok_of_toOption (by decide +kernel)
  have hkind : sampleDisk.stat sampleSettings.root = .ok .dir := rfl
  obtain ⟨summary, hresult⟩ := exists_completeTree_ok () Reporter.silent_leavesDisk
    Reporter.silent_neverFails rfl hignored hkind
  have hwrites := wrote_notMem_completeTree Reporter.silent_leavesDisk rfl hresult
  obtain ⟨htaken, hothers, hkinds⟩ :=
    lookup_final_completeTree sampleSettings .silent () sampleDisk samplePlace .dir summary rfl
      (by decide +kernel) (by decide +kernel) Reporter.silent_leavesDisk resolveNode_sample
      listable_sample hresult hwrites
  have hinside : CandidateText sampleSettings sampleDisk samplePlace
      (Path.ofString "d/a/z.ts").names "import a from './a';\n".toList := by
    have hcandidate : Candidate sampleSettings sampleDisk samplePlace
        (Path.ofString "a/z.ts").names := by
      decide +kernel
    exact hcandidate.candidateText_of_file (Disk.resolveNode_eq_ok_iff.1 resolveNode_sample).1
      rfl (by decide +kernel) rfl (Utf8.decode?_encode _)
  have houtside : CandidateText sampleSettings sampleDisk samplePlace
      (Path.ofString "x").names "export * from './b';\n".toList :=
    ⟨(Path.ofString "a.ts").names, Utf8.ofString "export * from './b';\n", by decide +kernel,
      eq_ok_of_toOption (by decide +kernel), rfl, Utf8.decode?_encode _⟩
  have hignores : ∀ text, ¬CandidateText sampleSettings sampleDisk samplePlace
      (Path.ofString "d/v/z.ts").names text := by
    rintro text ⟨names, old, hcandidate, hnode, -⟩
    have helsewhere : ∀ names ∈ sampleCandidates,
        (sampleDisk.resolve (sampleSettings.root.below names)).toOption ≠
          some (Path.ofString "d/v/z.ts").names := by
      decide +kernel
    apply helsewhere names ((candidate_sample_iff names).1 hcandidate)
    rw [(Disk.resolveNode_eq_ok_iff.1 hnode).1]
    rfl
  refine ⟨?_, ?_, ?_, hkinds⟩
  · rw [htaken _ _ hinside]
    decide +kernel
  · rw [htaken _ _ houtside]
    decide +kernel
  · rw [hothers _ hignores]
    decide +kernel

end ExplicitImports
