import ExplicitImports.Proofs.Disk.Shape
import ExplicitImports.Proofs.Import.Composition
import ExplicitImports.Proofs.Text.Utf8
import ExplicitImports.Run.File

/-!
# The work on one file

What the work on a file does to the disk.  It may go in five ways, which
`fileCase_completeFile` tells apart.  It reads the file that the path leads to, and
writes to that file or not at all, so the shape of the disk stays
(`sameShape_completeFile`).  If it does write, and the write is carried through, what
stands where the path leads is completed, and if it does not, it was complete before or
cannot be read: `completedAt_completeFile` says both at once.  A second completion of the
same node changes nothing (`Node.completed_completed`), and what is read after nodes were
completed is the completed text for these nodes and the old one for all others
(`CompletedAt.readText_of_inside`, `CompletedAt.readText_of_outside`).
-/

namespace ExplicitImports

/-- The node with the imports in its text completed; what is no text stays as it is. -/
def Node.completed (settings : Settings) : Node → Node
  | .file data =>
      match Utf8.decode? data with
      | some text => .file (Utf8.encode (completeImports settings text).text)
      | none => .file data
  | node => node

/-- There is nothing to complete in a completed text. -/
theorem not_changesText_completeImports {settings : Settings}
    (hext : '\'' ∉ settings.extension.toList) (content : List Char) :
    (completeImports settings (completeImports settings content).text).changesText = false := by
  have hcount := (completeImports_pair rfl rfl (fun _ => (Bool.or_self _).symm) hext content).2
  have hnone : (completeImports settings (completeImports settings content).text).imports = 0 := by
    omega
  simp [Completion.changesText, hnone]

/-- A completed node is left alone by the next completion. -/
theorem Node.completed_completed {settings : Settings}
    (hext : '\'' ∉ settings.extension.toList) (node : Node) :
    (node.completed settings).completed settings = node.completed settings := by
  cases node with
  | file data =>
      cases htext : Utf8.decode? data with
      | none => simp only [completed, htext]
      | some text =>
          have htwice := (completeImports_pair rfl rfl
            (fun _ => (Bool.or_self _).symm) hext text).1
          simp only [completed, htext, Utf8.decode?_encode, htwice]
  | dir => rfl
  | link target => rfl
  | pipe => rfl

section Congr

variable {a b : Settings} (hextension : a.extension = b.extension)
  (hprefixes : a.excludedPrefixes = b.excludedPrefixes)

include hextension hprefixes

/-- Only the extension and the excluded prefixes matter to the completion of a text. -/
theorem completeImports_congr : completeImports a = completeImports b := by
  have hcompletes : a.completes = b.completes := by
    funext path
    unfold Settings.completes Settings.excludes
    rw [hextension, hprefixes]
  have hcomplete : Segment.complete a = Segment.complete b := by
    funext segment
    cases segment with
    | other c => rfl
    | imported path =>
        unfold Segment.complete
        rw [hcompletes, hextension]
  have hisCompleted : Segment.isCompleted a = Segment.isCompleted b := by
    funext segment
    cases segment with
    | other c => rfl
    | imported path =>
        unfold Segment.isCompleted
        rw [hcompletes]
  funext content
  unfold completeImports
  rw [hcomplete, hisCompleted]

/-- To the work on a file it matters besides whether the run is dry. -/
theorem completeFile_congr (hdry : a.dryRun = b.dryRun) : completeFile a = completeFile b := by
  funext path disk
  unfold completeFile
  rw [completeImports_congr hextension hprefixes, hdry]

end Congr

namespace Disk

/-- From one disk to the other the nodes at some locations were completed and nothing else
was changed. -/
structure CompletedAt (settings : Settings) (places : Location → Prop) (before after : Disk) :
    Prop where
  inside : ∀ place, places place →
    after.lookup place = (before.lookup place).map (Node.completed settings)
  outside : ∀ place, ¬places place → after.lookup place = before.lookup place

namespace CompletedAt

variable {settings : Settings} {places places' : Location → Prop} {before between after : Disk}

/-- Where everything was complete there was nothing to do. -/
theorem of_completed (h : ∀ place, places place → ∀ node, before.lookup place = some node →
    node.completed settings = node) : CompletedAt settings places before before := by
  refine ⟨?_, fun _ _ => rfl⟩
  intro place hplace
  cases hlookup : before.lookup place with
  | none => rfl
  | some node => rw [Option.map_some, h place hplace node hlookup]

/-- Locations may be completed one after another, also the same ones again. -/
theorem trans (hext : '\'' ∉ settings.extension.toList)
    (h : CompletedAt settings places before between)
    (h' : CompletedAt settings places' between after) :
    CompletedAt settings (fun place => places place ∨ places' place) before after := by
  constructor
  · intro place hplace
    -- Where both have been, the second completion finds nothing left to do.
    by_cases hlater : places' place
    · rw [h'.inside place hlater]
      by_cases hearlier : places place
      · rw [h.inside place hearlier, Option.map_map]
        congr 1
        funext node
        exact node.completed_completed hext
      · rw [h.outside place hearlier]
    · rw [h'.outside place hlater, h.inside place (hplace.resolve_right hlater)]
  · intro place hplace
    rw [not_or] at hplace
    rw [h'.outside place hplace.2, h.outside place hplace.1]

end CompletedAt

/-- A write that is carried through leaves the new bytes in the file. -/
theorem eq_setData_of_write {disk next : Disk} {path : Path} {place : Location} {old new : Bytes}
    (hnode : disk.resolveNode path = .ok (place, .file old))
    (h : disk.write path new = (.ok (), next)) : next = disk.setData place new := by
  have hcase := disk.writeCase_write path new
  rw [h] at hcase
  cases hcase with
  | drained hpipe =>
      rw [hnode] at hpipe
      cases hpipe
  | done hnode' hopen hfits =>
      rw [hnode] at hnode'
      cases hnode'
      rfl

/-- What a text is read from: a file that holds it, or a pipe with nothing in it.  Either can
be read. -/
theorem exists_of_readText {disk : Disk} {path : Path} {content : List Char}
    (h : disk.readText path = .ok content) :
    ∃ place node, disk.resolveNode path = .ok (place, node) ∧ disk.Readable place ∧
      ((∃ data, node = .file data ∧ Utf8.decode? data = some content) ∨
        node = .pipe ∧ content = []) := by
  unfold readText Disk.read at h
  cases hnode : disk.resolveNode path with
  | error cause =>
      rw [hnode] at h
      cases h
  | ok found =>
      obtain ⟨place, node⟩ := found
      rw [hnode] at h
      simp only [bind, Except.bind] at h
      cases hopen : disk.openAt place with
      | error cause =>
          rw [hopen] at h
          cases h
      | ok _ =>
          refine ⟨place, node, rfl, openAt_eq_ok_iff.1 hopen, ?_⟩
          rw [hopen] at h
          cases node with
          | file data =>
              simp only at h
              split at h
              · rename_i text htext
                cases h
                exact .inl ⟨data, rfl, htext⟩
              · cases h
          | dir => cases h
          | link target => cases h
          | pipe =>
              cases h
              exact .inr ⟨rfl, rfl⟩

/-- A text is read from a file that can be read. -/
theorem readText_of_resolveNode {disk : Disk} {path : Path} {place : Location} {data : Bytes}
    {content : List Char} (hnode : disk.resolveNode path = .ok (place, .file data))
    (hopen : disk.Readable place) (hdata : Utf8.decode? data = some content) :
    disk.readText path = .ok content := by
  simp only [readText, Disk.read, hnode, bind, Except.bind, openAt_eq_ok_iff.2 hopen, hdata]

/-- Where something can be read that is no text, there is nothing to complete. -/
theorem completed_of_readText_error {disk : Disk} {path : Path} {place : Location} {node : Node}
    {cause : IoError} (h : disk.readText path = .error cause)
    (hnode : disk.resolveNode path = .ok (place, node)) (hopen : disk.Readable place)
    (settings : Settings) : node.completed settings = node := by
  cases node with
  | file data =>
      cases htext : Utf8.decode? data with
      | none => simp only [Node.completed, htext]
      | some text =>
          rw [readText_of_resolveNode hnode hopen htext] at h
          cases h
  | dir => rfl
  | link target => rfl
  | pipe => rfl

section Read

variable {settings : Settings} {places : Location → Prop} {before after : Disk} {path : Path}

/-- What is read by a path depends on the node alone that it leads to, and not even on that
if it cannot be read. -/
theorem readText_congr (hshape : after.SameShape before)
    (h : ∀ place, before.resolve path = .ok place → before.Readable place →
      after.lookup place = before.lookup place) :
    after.readText path = before.readText path := by
  unfold readText read
  cases hnode : before.resolveNode path with
  | error cause =>
      rw [hshape.symm.resolveNode_error hnode]
      rfl
  | ok found =>
      obtain ⟨place, node⟩ := found
      obtain ⟨other, hother, -⟩ := hshape.symm.exists_resolveNode hnode
      simp only [hother, bind, Except.bind, hshape.openAt_eq]
      cases hopen : before.openAt place with
      | error cause => rfl
      | ok _ =>
          obtain ⟨hplace, hlookup⟩ := resolveNode_eq_ok_iff.1 hnode
          have hsame := h place hplace (openAt_eq_ok_iff.1 hopen)
          rw [(resolveNode_eq_ok_iff.1 hother).2, hlookup] at hsame
          cases hsame
          rfl

variable (hshape : after.SameShape before) (h : CompletedAt settings places before after)

include hshape h

/-- What was no text before is none afterwards. -/
theorem CompletedAt.readText_error {cause : IoError} (hread : before.readText path = .error cause) :
    after.readText path = .error cause := by
  rw [← hread]
  apply readText_congr hshape
  intro place hplace hopen
  by_cases hcompleted : places place
  · rw [h.inside place hcompleted]
    cases hlookup : before.lookup place with
    | none => rfl
    | some node =>
        have hnode := resolveNode_eq_ok_iff.2 ⟨hplace, hlookup⟩
        rw [Option.map_some, completed_of_readText_error hread hnode hopen]
  · exact h.outside place hcompleted

variable {place : Location} (hplace : before.resolve path = .ok place)

include hplace

theorem CompletedAt.readText_of_outside (hcompleted : ¬places place) :
    after.readText path = before.readText path := by
  apply readText_congr hshape
  intro other hother _
  rw [hplace] at hother
  cases hother
  exact h.outside place hcompleted

/-- A text that was completed is read as the completed text. -/
theorem CompletedAt.readText_of_inside (hcompleted : places place) {content : List Char}
    (hread : before.readText path = .ok content) :
    after.readText path = .ok (completeImports settings content).text := by
  obtain ⟨there, node, hnode, hopen, hcontent⟩ := exists_of_readText hread
  obtain ⟨hthere, hlookup⟩ := resolveNode_eq_ok_iff.1 hnode
  rw [hplace] at hthere
  cases hthere
  have hlater : after.resolveNode path = .ok (place, node.completed settings) := by
    rw [resolveNode_eq_ok_iff, hshape.resolve_eq, h.inside place hcompleted, hlookup]
    exact ⟨hplace, rfl⟩
  have hopenLater := (hshape.readable_iff place).2 hopen
  rcases hcontent with ⟨data, rfl, hdata⟩ | ⟨rfl, rfl⟩
  · simp only [Node.completed, hdata] at hlater
    exact readText_of_resolveNode hlater hopenLater (Utf8.decode?_encode _)
  · have hempty : (completeImports settings []).text = [] := by
      simp [completeImports, Segment.ofText]
    unfold readText read
    simp only [hlater, Node.completed, bind, Except.bind, openAt_eq_ok_iff.2 hopenLater, hempty]
    rfl

omit hplace

/-- A text without imports to complete is read as it was, whatever was completed. -/
theorem CompletedAt.readText_of_unchanged {content : List Char}
    (hread : before.readText path = .ok content)
    (hsame : (completeImports settings content).changesText = false) :
    after.readText path = .ok content := by
  obtain ⟨there, node, hnode, -, -⟩ := exists_of_readText hread
  have hthere := (resolveNode_eq_ok_iff.1 hnode).1
  by_cases hcompleted : places there
  · rw [h.readText_of_inside hshape hthere hcompleted hread,
      text_completeImports_of_not_changesText hsame]
  · rw [h.readText_of_outside hshape hthere hcompleted, hread]

end Read

end Disk

/-- How the work on a file may go. -/
inductive FileCase (settings : Settings) (path : Path) (disk : Disk) : FileRun → Prop
  | unread {cause : IoError} (hread : disk.readText path = .error cause) :
      FileCase settings path disk
        { result := .error (.io path cause), disk, events := [.read path] }
  | unchanged {content : List Char} (hread : disk.readText path = .ok content)
      (hsame : (completeImports settings content).changesText = false) :
      FileCase settings path disk
        { result := .ok .unchanged, disk, events := [.read path, .log (.unchanged path)] }
  | unwritten {content : List Char} {imports : Nat} (hread : disk.readText path = .ok content)
      (himports : (completeImports settings content).imports = imports) (hpos : 0 < imports)
      (hdry : settings.dryRun = true) :
      FileCase settings path disk
        { result := .ok (.completed imports), disk
          events := [.read path, .log (.notWritten path imports)] }
  | refused {content : List Char} {cause : IoError} {next : Disk}
      (hread : disk.readText path = .ok content)
      (hpos : 0 < (completeImports settings content).imports) (hdry : settings.dryRun = false)
      (hwrite : disk.write path (Utf8.encode (completeImports settings content).text) =
        (.error cause, next)) :
      FileCase settings path disk
        { result := .error (.io path cause), disk := next
          events := [.read path, .wrote path false] }
  | written {content : List Char} {imports : Nat} {next : Disk}
      (hread : disk.readText path = .ok content)
      (himports : (completeImports settings content).imports = imports) (hpos : 0 < imports)
      (hdry : settings.dryRun = false)
      (hwrite : disk.write path (Utf8.encode (completeImports settings content).text) =
        (.ok (), next)) :
      FileCase settings path disk
        { result := .ok (.completed imports), disk := next
          events := [.read path, .wrote path true, .log (.completed path imports)] }

/-- The work on a file goes in one of these ways. -/
theorem fileCase_completeFile (settings : Settings) (path : Path) (disk : Disk) :
    FileCase settings path disk (completeFile settings path disk) := by
  unfold completeFile
  split
  · rename_i cause hread
    exact .unread hread
  · rename_i content hread
    dsimp only
    split
    · rename_i hsame
      exact .unchanged hread (by simpa using hsame)
    · rename_i hchanges
      have hpos : 0 < (completeImports settings content).imports := by
        rwa [Bool.not_eq_true', Bool.not_eq_false, Completion.changesText_iff] at hchanges
      split
      · rename_i hdry
        exact .unwritten hread rfl hpos hdry
      · rename_i hdry
        rw [Bool.not_eq_true] at hdry
        split
        · rename_i cause next hwrite
          exact .refused hread hpos hdry hwrite
        · rename_i next hwrite
          exact .written hread rfl hpos hdry hwrite

section Cases

variable {settings : Settings} {path : Path} {disk : Disk}

theorem completeFile_of_error {cause : IoError} (hread : disk.readText path = .error cause) :
    completeFile settings path disk =
      { result := .error (.io path cause), disk, events := [.read path] } := by
  unfold completeFile
  rw [hread]

theorem completeFile_of_unchanged {content : List Char} (hread : disk.readText path = .ok content)
    (hsame : (completeImports settings content).changesText = false) :
    completeFile settings path disk =
      { result := .ok .unchanged, disk, events := [.read path, .log (.unchanged path)] } := by
  unfold completeFile
  rw [hread]
  simp [hsame]

/-- A file with imports to complete is written, if its write is not given up. -/
theorem result_completeFile_of_changed {content : List Char}
    (hread : disk.readText path = .ok content)
    (hchanges : (completeImports settings content).changesText = true)
    (hdry : settings.dryRun = false)
    (hwrites : ∀ other, .wrote other false ∉ (completeFile settings path disk).events) :
    (completeFile settings path disk).result =
      .ok (.completed (completeImports settings content).imports) := by
  unfold completeFile at hwrites ⊢
  rw [hread] at hwrites ⊢
  simp only [hchanges, hdry, Bool.not_true, Bool.false_eq_true, if_false] at hwrites ⊢
  split at hwrites
  · exact absurd (by simp) (hwrites path)
  · rfl

end Cases

/-- The work on a file keeps the shape of the disk, however it ends. -/
theorem sameShape_completeFile (settings : Settings) (path : Path) (disk : Disk) :
    (completeFile settings path disk).disk.SameShape disk := by
  have hcase := fileCase_completeFile settings path disk
  generalize completeFile settings path disk = run at hcase ⊢
  have hshape {data : Bytes} {result : Except IoError Unit} {next : Disk}
      (hwrite : disk.write path data = (result, next)) : next.SameShape disk := by
    have hkept := Disk.SameShape.write disk path data
    rwa [hwrite] at hkept
  cases hcase with
  | unread hread => rfl
  | unchanged hread hsame => rfl
  | unwritten hread himports hpos hdry => rfl
  | refused hread hpos hdry hwrite => exact hshape hwrite
  | written hread himports hpos hdry hwrite => exact hshape hwrite

/-- After the work on a file, with no write given up, the node that the path leads to is
completed, if it can be read, and every other one is as it was. -/
theorem completedAt_completeFile {settings : Settings} {path : Path} {disk : Disk}
    (hdry : settings.dryRun = false)
    (hwrites : ∀ other, .wrote other false ∉ (completeFile settings path disk).events) :
    Disk.CompletedAt settings
      (fun place => disk.resolve path = .ok place ∧ disk.Readable place) disk
      (completeFile settings path disk).disk := by
  unfold completeFile at hwrites ⊢
  cases hread : disk.readText path with
  | error cause =>
      refine .of_completed ?_
      rintro place ⟨hplace, hopen⟩ node hlookup
      have hnode := Disk.resolveNode_eq_ok_iff.2 ⟨hplace, hlookup⟩
      exact Disk.completed_of_readText_error hread hnode hopen settings
  | ok content =>
      obtain ⟨there, node, hnode, hopen, hcontent⟩ := Disk.exists_of_readText hread
      obtain ⟨hresolve, hlookup⟩ := Disk.resolveNode_eq_ok_iff.1 hnode
      rw [hread] at hwrites
      simp only [hdry, Bool.false_eq_true, if_false] at hwrites ⊢
      cases hchanges : (completeImports settings content).changesText with
      | false =>
          have hsame := text_completeImports_of_not_changesText hchanges
          refine .of_completed ?_
          rintro place ⟨hplace, -⟩ other hother
          rw [hresolve] at hplace
          cases hplace
          rw [hlookup] at hother
          cases hother
          rcases hcontent with ⟨data, rfl, hdata⟩ | ⟨rfl, -⟩
          · simp only [Node.completed, hdata, hsame, Utf8.encode_of_decode? hdata]
          · rfl
      | true =>
          simp only [hchanges, Bool.not_true, Bool.false_eq_true, if_false] at hwrites ⊢
          -- An empty pipe has no imports, so what was read is a file, and it was written to.
          rcases hcontent with ⟨data, rfl, hdata⟩ | ⟨-, rfl⟩
          · split at hwrites
            · exact absurd (by simp) (hwrites path)
            · rename_i next hwrite
              have hkind : disk.kind? there = some .file :=
                Disk.kind?_eq_some_iff.2 ⟨_, hlookup, rfl⟩
              rw [Disk.eq_setData_of_write hnode hwrite, hresolve]
              constructor
              · rintro place ⟨hplace, -⟩
                cases hplace
                rw [Disk.lookup_setData _ _ _ _ hkind, if_pos rfl, hlookup]
                simp only [Option.map_some, Node.completed, hdata]
              · intro place hplace
                rw [Disk.lookup_setData _ _ _ _ hkind, if_neg]
                rintro rfl
                exact hplace ⟨rfl, hopen⟩
          · simp [completeImports, Completion.changesText, Segment.ofText] at hchanges

theorem Disk.unbounded_write (disk : Disk) (path : Path) (data : Bytes) :
    (disk.write path data).2.unbounded = disk.unbounded := by
  have hcase := disk.writeCase_write path data
  generalize disk.write path data = written at hcase ⊢
  cases hcase <;> rfl

theorem unbounded_completeFile (settings : Settings) (path : Path) (disk : Disk) :
    (completeFile settings path disk).disk.unbounded = disk.unbounded := by
  have hcase := fileCase_completeFile settings path disk
  generalize completeFile settings path disk = run at hcase ⊢
  have hkept {data : Bytes} {result : Except IoError Unit} {next : Disk}
      (hwrite : disk.write path data = (result, next)) : next.unbounded = disk.unbounded := by
    have hunbounded := disk.unbounded_write path data
    rwa [hwrite] at hunbounded
  cases hcase with
  | unread hread => rfl
  | unchanged hread hsame => rfl
  | unwritten hread himports hpos hdry => rfl
  | refused hread hpos hdry hwrite => exact hkept hwrite
  | written hread himports hpos hdry hwrite => exact hkept hwrite

/-- On a disk that takes every write, what could be read can be written. -/
theorem wrote_notMem_completeFile {disk : Disk} (h : disk.unbounded = true) (settings : Settings)
    (path other : Path) : .wrote other false ∉ (completeFile settings path disk).events := by
  have hcase := fileCase_completeFile settings path disk
  generalize completeFile settings path disk = run at hcase ⊢
  cases hcase with
  | unread hread => simp
  | unchanged hread hsame => simp
  | unwritten hread himports hpos hdry => simp
  | @refused content cause next hread hpos hdry hwrite =>
      exfalso
      obtain ⟨place, node, hnode, -, ⟨data, rfl, -⟩ | ⟨rfl, -⟩⟩ := Disk.exists_of_readText hread
      · simp [Disk.write, hnode, (disk.unbounded_iff.1 h).2.2, Disk.room?_of_unbounded h] at hwrite
      · simp [Disk.write, hnode] at hwrite
  | written hread himports hpos hdry hwrite => simp

end ExplicitImports
