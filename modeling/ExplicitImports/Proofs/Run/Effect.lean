import ExplicitImports.Proofs.Run.Work

/-!
# What becomes of a file

The work on a file decides by a count whether to write.  The count is right: every import
that is counted makes the text longer by the extension, which is not empty then, so the text
is changed if and only if something was counted (`text_completeImports_ne_iff`).

* `effect_completeFile` — when a write is tried, what is returned, and which file is changed.
* `kept_completeFile` — what an error leaves behind.  Nothing is lost, unless the write itself
  was begun and stopped for want of room; then the file holds the beginning of the new text.
* `not_forall_kept` — a file that is cut short by a limit on the size of files.
-/

namespace ExplicitImports

section Growth

variable (settings : Settings)

/-- What is added up over a text is the larger by what the extension counts, for every import
that is completed. -/
theorem size_completeImports (size : List Char → Nat) (hnil : size [] = 0)
    (happend : ∀ front back, size (front ++ back) = size front + size back)
    (content : List Char) :
    size (completeImports settings content).text =
      size content + (completeImports settings content).imports *
        size settings.extension.toList := by
  have hpiece (segment : Segment) :
      size (segment.complete settings).text = size segment.text +
        (if segment.isCompleted settings then 1 else 0) * size settings.extension.toList := by
    cases segment with
    | other c => simp [Segment.complete, Segment.isCompleted]
    | imported path =>
        by_cases hcompletes : settings.completes path = true
        · simp [Segment.complete, Segment.isCompleted, hcompletes, Segment.text, happend]
          omega
        · simp [Segment.complete, Segment.isCompleted, hcompletes]
  have hpieces (segments : List Segment) :
      size (segments.flatMap fun segment => (segment.complete settings).text) =
        size (segments.flatMap Segment.text) +
          segments.countP (Segment.isCompleted settings) * size settings.extension.toList := by
    induction segments with
    | nil => simp [hnil]
    | cons segment rest ih =>
        simp only [List.flatMap_cons, happend, hpiece, ih, List.countP_cons, Nat.add_mul]
        omega
  have hwhole := hpieces (Segment.ofText content)
  rwa [Segment.flatMap_text_ofText] at hwhole

/-- An empty extension is never lacking. -/
theorem extension_ne_nil_of_imports_pos {content : List Char}
    (h : 0 < (completeImports settings content).imports) : settings.extension.toList ≠ [] := by
  intro hnone
  obtain ⟨segment, -, hcompleted⟩ := List.countP_pos_iff.1 h
  cases segment with
  | other c => cases hcompleted
  | imported path =>
      simp [Segment.isCompleted, Settings.completes, hnone] at hcompleted

/-- A text is changed if and only if an import in it is completed. -/
theorem text_completeImports_ne_iff (content : List Char) :
    (completeImports settings content).text ≠ content ↔
      0 < (completeImports settings content).imports := by
  constructor
  · intro hne
    by_contra hnone
    apply hne
    apply text_completeImports_of_not_changesText
    rwa [← Bool.not_eq_true, Completion.changesText_iff]
  · intro hpos hsame
    have hlength := size_completeImports settings List.length rfl
      (fun _ _ => List.length_append) content
    have hextension := List.length_pos_iff.2 (extension_ne_nil_of_imports_pos settings hpos)
    have hgrown := Nat.mul_pos hpos hextension
    rw [hsame] at hlength
    omega

/-- In bytes as well, a text grows by the extension for every import that is completed. -/
theorem length_encode_completeImports (content : List Char) :
    (Utf8.encode (completeImports settings content).text).length =
      (Utf8.encode content).length + (completeImports settings content).imports *
        (Utf8.ofString settings.extension).length :=
  size_completeImports settings (fun text => (Utf8.encode text).length) rfl
    (fun _ _ => by rw [Utf8.encode_append, List.length_append]) content

end Growth

/-- The path leads to a file at this location that can be read, and this text is in it. -/
def Disk.TextAt (disk : Disk) (path : Path) (place : Location) (content : List Char) : Prop :=
  ∃ data, disk.resolveNode path = .ok (place, .file data) ∧ disk.Readable place ∧
    Utf8.decode? data = some content

namespace Disk.TextAt

variable {disk : Disk} {path : Path} {place : Location} {content : List Char}

theorem readText (h : disk.TextAt path place content) : disk.readText path = .ok content := by
  obtain ⟨data, hnode, hopen, hdata⟩ := h
  exact Disk.readText_of_resolveNode hnode hopen hdata

theorem kind? (h : disk.TextAt path place content) : disk.kind? place = some .file := by
  obtain ⟨data, hnode, -, -⟩ := h
  exact Disk.kind?_eq_some_iff.2 ⟨_, Disk.lookup_of_resolveNode hnode, rfl⟩

/-- What is changed by completing it was read from a file: an empty pipe has no imports. -/
theorem of_readText {settings : Settings} (hread : disk.readText path = .ok content)
    (hpos : 0 < (completeImports settings content).imports) :
    ∃ place, disk.TextAt path place content := by
  obtain ⟨place, node, hnode, hopen, ⟨data, rfl, hdata⟩ | ⟨-, rfl⟩⟩ :=
    Disk.exists_of_readText hread
  · exact ⟨place, data, hnode, hopen, hdata⟩
  · simp [completeImports, Segment.ofText] at hpos

end Disk.TextAt

namespace FileCase

variable {settings : Settings} {path : Path} {disk : Disk} {run : FileRun}
  (h : FileCase settings path disk run)

include h

/-- A write is tried where the run is not dry and a text is read that is to be changed. -/
theorem exists_wrote_iff :
    (∃ other complete, .wrote other complete ∈ run.events) ↔
      settings.dryRun = false ∧ ∃ place content, disk.TextAt path place content ∧
        (completeImports settings content).text ≠ content := by
  simp only [text_completeImports_ne_iff]
  cases h with
  | unread hread =>
      refine iff_of_false (by simp) ?_
      rintro ⟨-, place, content, htext, -⟩
      rw [htext.readText] at hread
      cases hread
  | @unchanged found hread hsame =>
      refine iff_of_false (by simp) ?_
      rintro ⟨-, place, content, htext, hpos⟩
      rw [htext.readText] at hread
      cases hread
      rw [← Bool.not_eq_true, Completion.changesText_iff] at hsame
      exact hsame hpos
  | unwritten hread himports hpos hdry =>
      refine iff_of_false (by simp) ?_
      rintro ⟨hwet, -⟩
      rw [hdry] at hwet
      cases hwet
  | @refused content cause next hread hpos hdry hwrite =>
      refine iff_of_true ⟨path, false, by simp⟩ ⟨hdry, ?_⟩
      obtain ⟨place, htext⟩ := Disk.TextAt.of_readText hread hpos
      exact ⟨place, content, htext, hpos⟩
  | @written content imports next hread himports hpos hdry hwrite =>
      refine iff_of_true ⟨path, true, by simp⟩ ⟨hdry, ?_⟩
      rw [← himports] at hpos
      obtain ⟨place, htext⟩ := Disk.TextAt.of_readText hread hpos
      exact ⟨place, content, htext, hpos⟩

theorem eq_of_wrote {other : Path} {complete : Bool}
    (hwrote : .wrote other complete ∈ run.events) : other = path := by
  cases h <;> simp_all

/-- Something is returned where a text is read and no write is given up. -/
theorem exists_ok_iff :
    (∃ effect, run.result = .ok effect) ↔
      (∃ content, disk.readText path = .ok content) ∧ ∀ other, .wrote other false ∉ run.events := by
  cases h with
  | unread hread => simp [hread]
  | unchanged hread hsame => simp [hread]
  | unwritten hread himports hpos hdry => simp [hread]
  | refused hread hpos hdry hwrite => simp
  | written hread himports hpos hdry hwrite => simp [hread]

/-- What is returned tells whether the text is changed by completion, and how often. -/
theorem exists_of_ok {effect : FileEffect} (hok : run.result = .ok effect) :
    ∃ content, disk.readText path = .ok content ∧
      effect = if 0 < (completeImports settings content).imports
        then .completed (completeImports settings content).imports else .unchanged := by
  cases h with
  | unread hread => cases hok
  | @unchanged content hread hsame =>
      cases hok
      refine ⟨content, hread, (if_neg ?_).symm⟩
      rwa [← Bool.not_eq_true, Completion.changesText_iff] at hsame
  | @unwritten content imports hread himports hpos hdry =>
      cases hok
      exact ⟨content, hread, by rw [himports, if_pos hpos]⟩
  | refused hread hpos hdry hwrite => cases hok
  | @written content imports next hread himports hpos hdry hwrite =>
      cases hok
      exact ⟨content, hread, by rw [himports, if_pos hpos]⟩

/-- Where no write is tried the disk stays as it is. -/
theorem disk_eq_of_not_wrote (hnone : ∀ other complete, .wrote other complete ∉ run.events) :
    run.disk = disk := by
  cases h with
  | unread hread => rfl
  | unchanged hread hsame => rfl
  | unwritten hread himports hpos hdry => rfl
  | refused hread hpos hdry hwrite => exact absurd (by simp) (hnone path false)
  | written hread himports hpos hdry hwrite => exact absurd (by simp) (hnone path true)

/-- A write that is carried through puts the new text in the place of the one that was read. -/
theorem disk_eq_of_wrote (hwrote : .wrote path true ∈ run.events) :
    ∃ place content, disk.TextAt path place content ∧
      run.disk = disk.setData place (Utf8.encode (completeImports settings content).text) := by
  cases h with
  | unread hread => simp at hwrote
  | unchanged hread hsame => simp at hwrote
  | unwritten hread himports hpos hdry => simp at hwrote
  | refused hread hpos hdry hwrite => simp at hwrote
  | @written content imports next hread himports hpos hdry hwrite =>
      obtain ⟨place, data, hnode, htext⟩ := Disk.TextAt.of_readText hread (himports ▸ hpos)
      exact ⟨place, content, ⟨data, hnode, htext⟩, Disk.eq_setData_of_write hnode hwrite⟩

end FileCase

/-- What the work on a file tries, returns and leaves behind.  A write is tried if and only if
the run is not dry and the path leads to a file that can be read, with a text that completion
changes.  What is
returned is `completed` if and only if the text that was read is changed, with the number of
extensions by which it grows, and `unchanged` if and only if it stays.  Every error names the
path as it was given.  Where no write is tried the disk stays as it is, and a write that is
carried through changes the one file that the path leads to, which holds the new text then. -/
theorem effect_completeFile (settings : Settings) (path : Path) (disk : Disk) :
    let run := completeFile settings path disk
    ((∃ other complete, .wrote other complete ∈ run.events) ↔
      settings.dryRun = false ∧ ∃ place content, disk.TextAt path place content ∧
        (completeImports settings content).text ≠ content) ∧
    (∀ other complete, .wrote other complete ∈ run.events → other = path) ∧
    ((∃ effect, run.result = .ok effect) ↔
      (∃ content, disk.readText path = .ok content) ∧
        ∀ other, .wrote other false ∉ run.events) ∧
    (∀ effect, run.result = .ok effect → ∃ content, disk.readText path = .ok content ∧
      (effect = .unchanged ↔ (completeImports settings content).text = content) ∧
      ((∃ n, effect = .completed n) ↔ (completeImports settings content).text ≠ content) ∧
      ∀ n, effect = .completed n → 0 < n ∧
        (Utf8.encode (completeImports settings content).text).length =
          (Utf8.encode content).length + n * (Utf8.ofString settings.extension).length) ∧
    (∀ error, run.result = .error error → ∃ cause, error = .io path cause) ∧
    ((∀ other complete, .wrote other complete ∉ run.events) → run.disk = disk) ∧
    (.wrote path true ∈ run.events → ∃ place content, disk.TextAt path place content ∧
      run.disk.lookup place =
        some (.file (Utf8.encode (completeImports settings content).text)) ∧
      ∀ other, other ≠ place → run.disk.lookup other = disk.lookup other) := by
  intro run
  have hcase := fileCase_completeFile settings path disk
  refine ⟨hcase.exists_wrote_iff, fun _ _ => hcase.eq_of_wrote, hcase.exists_ok_iff, ?_,
    fun _ => completeFile_error, hcase.disk_eq_of_not_wrote, ?_⟩
  · intro effect hok
    obtain ⟨content, hread, heffect⟩ := hcase.exists_of_ok hok
    have hchanged := text_completeImports_ne_iff settings content
    refine ⟨content, hread, ?_⟩
    by_cases hpos : 0 < (completeImports settings content).imports
    · rw [if_pos hpos] at heffect
      have hne := hchanged.2 hpos
      refine ⟨by simp [heffect, hne], by simp [heffect, hne], ?_⟩
      rintro n hn
      rw [heffect] at hn
      cases hn
      exact ⟨hpos, length_encode_completeImports settings content⟩
    · rw [if_neg hpos] at heffect
      have hsame := not_not.1 (mt hchanged.1 hpos)
      refine ⟨by simp [heffect, hsame], by simp [heffect, hsame], ?_⟩
      rintro n hn
      rw [heffect] at hn
      cases hn
  · intro hwrote
    obtain ⟨place, content, htext, hdisk⟩ := hcase.disk_eq_of_wrote hwrote
    refine ⟨place, content, htext, ?_, ?_⟩
    · show (completeFile settings path disk).disk.lookup place = _
      rw [hdisk, Disk.lookup_setData _ _ _ _ htext.kind?, if_pos rfl]
    · intro other hother
      show (completeFile settings path disk).disk.lookup other = _
      rw [hdisk, Disk.lookup_setData _ _ _ _ htext.kind?, if_neg hother]

/-- A file with an import to complete, `a.ts`, beside another file. -/
def pairDisk : Disk where
  nodes :=
    [((Path.ofString "a.ts").names, .file (Utf8.ofString "import a from './a';\n")),
      ((Path.ofString "b.ts").names, .file (Utf8.ofString "1"))]

/-- The one file is written and the other one stays. -/
theorem effect_completeFile_pair :
    let path := Path.ofString "a.ts"
    let run := completeFile {} path pairDisk
    .wrote path true ∈ run.events ∧
      run.disk.lookup path.names = some (.file (Utf8.ofString "import a from './a.js';\n")) ∧
      run.disk.lookup (Path.ofString "b.ts").names = some (.file (Utf8.ofString "1")) := by
  intro path run
  have hwrote : .wrote path true ∈ run.events := by decide +kernel
  obtain ⟨-, -, -, -, -, -, hwritten⟩ := effect_completeFile {} path pairDisk
  obtain ⟨place, content, ⟨data, hnode, -, hdata⟩, hnew, hothers⟩ := hwritten hwrote
  have hpath : pairDisk.resolveNode path =
      .ok (path.names, .file (Utf8.ofString "import a from './a';\n")) := rfl
  rw [hpath] at hnode
  cases hnode
  rw [Utf8.ofString, Utf8.decode?_encode] at hdata
  cases hdata
  refine ⟨hwrote, ?_, ?_⟩
  · rw [hnew]
    decide +kernel
  · rw [hothers _ (by decide +kernel)]
    rfl

/-- The write of the completed text is begun and stops part way: the file that the path leads
to can be opened, and there is room in it for no more than so many bytes of the new text. -/
structure CutShort (settings : Settings) (path : Path) (disk : Disk) (place : Location)
    (content : List Char) (room : Nat) : Prop where
  wet : settings.dryRun = false
  text : disk.TextAt path place content
  changed : (completeImports settings content).text ≠ content
  writable : place ∉ disk.readOnly
  bounded : ∃ answer, disk.room? place = some (room, answer)
  long : room < (Utf8.encode (completeImports settings content).text).length

namespace CutShort

variable {settings : Settings} {path : Path} {disk : Disk} {place : Location}
  {content : List Char} {room : Nat}

/-- What was to be written past the room there is, is lost, with what stood in the file. -/
theorem completeFile_eq (h : CutShort settings path disk place content room) :
    ∃ answer, disk.room? place = some (room, answer) ∧
      completeFile settings path disk =
        { result := .error (.io path (.os answer))
          disk := disk.setData place
            ((Utf8.encode (completeImports settings content).text).take room)
          events := [.read path, .wrote path false] } := by
  obtain ⟨answer, hroom⟩ := h.bounded
  obtain ⟨data, hnode, -, -⟩ := h.text
  have hchanges : (completeImports settings content).changesText = true :=
    Completion.changesText_iff.2 ((text_completeImports_ne_iff settings content).1 h.changed)
  have hwrite : disk.write path (Utf8.encode (completeImports settings content).text) =
      (.error (.os answer), disk.setData place
        ((Utf8.encode (completeImports settings content).text).take room)) := by
    simp [Disk.write, hnode, h.writable, hroom, Nat.not_le_of_lt h.long]
  refine ⟨answer, hroom, ?_⟩
  unfold completeFile
  rw [h.text.readText]
  simp [hchanges, h.wet, hwrite]

end CutShort

/-- Where the work on a file fails, all is as before or a write was cut short. -/
theorem FileCase.kept_of_error {settings : Settings} {path : Path} {disk : Disk} {run : FileRun}
    (h : FileCase settings path disk run) {error : RunError} (herror : run.result = .error error)
    {place : Location}
    (hwhole : ∀ content room, ¬CutShort settings path disk place content room) :
    run.disk.lookup place = disk.lookup place := by
  cases h with
  | unread hread => rfl
  | unchanged hread hsame => cases herror
  | unwritten hread himports hpos hdry => cases herror
  | @refused content cause next hread hpos hdry hwrite =>
      have hcase := disk.writeCase_write path (Utf8.encode (completeImports settings content).text)
      rw [hwrite] at hcase
      cases hcase with
      | refused hclosed => rfl
      | @stopped there old room answer hnode hopen hroom hlong =>
          obtain ⟨_, htext⟩ := Disk.TextAt.of_readText hread hpos
          obtain ⟨data, hnode', hreadable, hdata⟩ := htext
          rw [hnode] at hnode'
          cases hnode'
          have hcut : CutShort settings path disk there content room :=
            { wet := hdry
              text := ⟨old, hnode, hreadable, hdata⟩
              changed := (text_completeImports_ne_iff settings content).2 hpos
              writable := hopen
              bounded := ⟨answer, hroom⟩
              long := hlong }
          rw [Disk.lookup_setData _ _ _ _ hcut.text.kind?, if_neg]
          rintro rfl
          exact hwhole content room hcut
  | written hread himports hpos hdry hwrite => cases herror

/-- What an error in the work on a file leaves behind.  Every node is as it was, but for the
file that the path leads to if its new text was begun to be written and there was no room for
all of it.  Then the work fails with the answer of the system, and the file holds as many
bytes of the new text as there was room for. -/
theorem kept_completeFile (settings : Settings) (path : Path) (disk : Disk) :
    let run := completeFile settings path disk
    (∀ error, run.result = .error error → ∀ place,
      (∀ content room, ¬CutShort settings path disk place content room) →
        run.disk.lookup place = disk.lookup place) ∧
    ∀ place content room, CutShort settings path disk place content room →
      (∃ answer, disk.room? place = some (room, answer) ∧
        run.result = .error (.io path (.os answer))) ∧
      run.disk.lookup place = some (.file
        ((Utf8.encode (completeImports settings content).text).take room)) := by
  intro run
  constructor
  · intro error herror place hwhole
    exact (fileCase_completeFile settings path disk).kept_of_error herror hwhole
  · intro place content room hcut
    obtain ⟨answer, hroom, hrun⟩ := hcut.completeFile_eq
    refine ⟨⟨answer, hroom, ?_⟩, ?_⟩
    · show (completeFile settings path disk).result = _
      rw [hrun]
    · show (completeFile settings path disk).disk.lookup place = _
      rw [hrun, Disk.lookup_setData _ _ _ _ hcut.text.kind?, if_pos rfl]

/-- On a device with room for two bytes less than the new text the end of a line is lost.  The
other file stays. -/
theorem kept_completeFile_full :
    let path := Path.ofString "a.ts"
    let disk : Disk := { pairDisk with capacity := some 23 }
    let run := completeFile {} path disk
    run.result = .error (.io path (.os .noSpace)) ∧
      run.disk.lookup path.names = some (.file (Utf8.ofString "import a from './a.js'")) ∧
      run.disk.lookup (Path.ofString "b.ts").names = some (.file (Utf8.ofString "1")) := by
  intro path disk run
  have hpath : disk.resolveNode path =
      .ok (path.names, .file (Utf8.ofString "import a from './a';\n")) := rfl
  have hroom : disk.room? path.names = some (22, .noSpace) := by decide +kernel
  have hcut : CutShort {} path disk path.names "import a from './a';\n".toList 22 :=
    { wet := rfl
      text := ⟨_, hpath, rfl, Utf8.decode?_encode _⟩
      changed := by decide +kernel
      writable := List.not_mem_nil
      bounded := ⟨_, hroom⟩
      long := by decide +kernel }
  obtain ⟨hkept, hshort⟩ := kept_completeFile {} path disk
  obtain ⟨⟨answer, hanswer, hresult⟩, hfile⟩ := hshort _ _ _ hcut
  rw [hroom] at hanswer
  cases hanswer
  refine ⟨hresult, ?_, ?_⟩
  · rw [hfile]
    decide +kernel
  · rw [hkept _ hresult]
    · rfl
    · intro content room hother
      obtain ⟨data, hnode, -, -⟩ := hother.text
      rw [hpath] at hnode
      exact absurd (Prod.mk.inj (Except.ok.inj hnode)).1 (by decide +kernel)

/-- So it is not true that an error leaves every file as it was: a limit of ten bytes on the
size of files leaves ten bytes of the new text in the file. -/
theorem not_forall_kept :
    ¬∀ (settings : Settings) (path : Path) (disk : Disk) (error : RunError),
      (completeFile settings path disk).result = .error error →
        ∀ place data, disk.lookup place = some (.file data) →
          (completeFile settings path disk).disk.lookup place = some (.file data) := by
  intro h
  let path := Path.ofString "a.ts"
  let disk : Disk := { pairDisk with sizeLimit := some 10 }
  have hfails : (completeFile {} path disk).result.toOption = none := by decide +kernel
  have hcut : (completeFile {} path disk).disk.lookup path.names =
      some (.file (Utf8.ofString "import a f")) := by
    decide +kernel
  cases hresult : (completeFile {} path disk).result with
  | ok effect =>
      rw [hresult] at hfails
      cases hfails
  | error error =>
      have hkept := h {} path disk error hresult path.names _ rfl
      rw [hcut] at hkept
      exact absurd hkept (by decide +kernel)

end ExplicitImports
