import ExplicitImports.Output.Document
import ExplicitImports.Proofs.Report.Kept
import ExplicitImports.Proofs.Text.JsonReader
import ExplicitImports.Proofs.Text.Utf8
import ExplicitImports.Proofs.Walk.Scanned

/-!
# What a document tells

The document of a summary can be read: the grammar of JSON gives back the value that was
written, and the members of that value give back the summary.  A summary with a path that is
not UTF-8 has no document.

* `Document.toSummary?` — the summary that a value tells of, read member by member.
* `Document.toSummary?_of_ofSummary` — it is the one that the value was made for.
* `Document.printedIf_ofSummary` — there is a value exactly if all paths are UTF-8.
* `Document.tell_done_of_text`, `Document.tell_done_of_not_text` — what the reporter does when
  it is told a summary.
* `document_completeTree` — what is printed can be read back, and what a run prints is the
  document of the summary that it returns.
-/

namespace ExplicitImports

/-- The paths that a summary tells. -/
def Summary.paths (summary : Summary) : List Path :=
  summary.fixed.map Fix.path ++ summary.failures.filterMap Failure.path

/-- The bytes of the path are UTF-8. -/
def Path.IsText (path : Path) : Prop :=
  path.string?.isSome = true

instance (path : Path) : Decidable path.IsText :=
  inferInstanceAs (Decidable (path.string?.isSome = true))

theorem Path.ofString_of_string? {path : Path} {text : String} (h : path.string? = some text) :
    ofString text = path := by
  obtain ⟨chars, hchars, rfl⟩ := Option.map_eq_some_iff.1 h
  unfold ofString Utf8.ofString
  rw [String.toList_ofList, Utf8.encode_of_decode? hchars]

/-- The streams after a text and the end of its line were printed. -/
def Streams.printed (streams : Streams) (text : List Char) : Streams :=
  { streams with
    out := { streams.out with
      received := streams.out.received ++ Utf8.encode (text ++ ['\n']) } }

namespace Json

/-- The value of the first member of this name. -/
def member? (name : String) : Json → Option Json
  | .object members => members.lookup name
  | _ => none

def bool? : Json → Option Bool
  | .bool value => some value
  | _ => none

def number? : Json → Option Nat
  | .number value => some value
  | _ => none

def string? : Json → Option String
  | .string value => some value
  | _ => none

def items? : Json → Option (List Json)
  | .array items => some items
  | _ => none

end Json

namespace Document

def toPath? (value : Json) : Option Path := do
  return Path.ofString (← value.string?)

def toFixedFile? (value : Json) : Option Fix := do
  return {
    path := ← toPath? (← value.member? "path")
    imports := ← (← value.member? "imports").number? }

/-- A failure is told with its path or without one. -/
def toFailure? (value : Json) : Option Failure := do
  let error ← (← value.member? "error").string?
  match value.member? "path" with
  | none => return { path := none, error }
  | some path => return { path := some (← toPath? path), error }

/-- Where no failures are told there are none. -/
def toFailures? (value : Json) : Option (List Failure) :=
  match value.member? "failures" with
  | none => some []
  | some failures => do (← failures.items?).mapM toFailure?

/-- The summary that a value tells of. -/
def toSummary? (value : Json) : Option Summary := do
  let imports ← (← value.member? "imports_rewritten").number?
  if imports < 2 ^ 64 then
    return {
      dryRun := ← (← value.member? "dry_run").bool?
      scanned := ← (← value.member? "scanned").number?
      imports := UInt64.ofNat imports
      fixed := ← (← (← value.member? "fixed").items?).mapM toFixedFile?
      failures := ← toFailures? value }
  else none

/-- By the grammar of JSON the text is a document, and it tells of this summary. -/
def Tells (text : List Char) (summary : Summary) : Prop :=
  (Json.read? text).bind toSummary? = some summary

section Read

theorem toPath?_of_ofPath {path : Path} {value : Json} (h : ofPath path = .ok value) :
    toPath? value = some path := by
  unfold ofPath at h
  split at h
  · rename_i text htext
    cases h
    exact congrArg some (Path.ofString_of_string? htext)
  · cases h

theorem toFixedFile?_of_ofFixedFile {file : Fix} {value : Json}
    (h : ofFixedFile file = .ok value) : toFixedFile? value = some file := by
  unfold ofFixedFile at h
  cases hpath : ofPath file.path with
  | error e =>
      rw [hpath] at h
      cases h
  | ok path =>
      rw [hpath] at h
      cases h
      have htext := toPath?_of_ofPath hpath
      simp [toFixedFile?, Json.member?, Json.number?, htext, List.lookup_cons]

theorem toFailure?_of_ofFailure {failure : Failure} {value : Json}
    (h : ofFailure failure = .ok value) : toFailure? value = some failure := by
  obtain ⟨path?, error⟩ := failure
  cases path? with
  | none =>
      cases h
      rfl
  | some path =>
      unfold ofFailure at h
      cases hpath : ofPath path with
      | error e =>
          simp only [hpath] at h
          cases h
      | ok told =>
          simp only [hpath] at h
          cases h
          have htext := toPath?_of_ofPath hpath
          simp [toFailure?, Json.member?, Json.string?, htext, List.lookup_cons]

/-- What is read back of each item is read back of all of them. -/
theorem mapM_of_mapM {α β ε : Type} {write : α → Except ε β} {read : β → Option α}
    (h : ∀ item told, write item = .ok told → read told = some item) {items : List α}
    {all : List β} (hall : items.mapM write = .ok all) : all.mapM read = some items := by
  induction items generalizing all with
  | nil =>
      cases hall
      rfl
  | cons item items ih =>
      rw [List.mapM_cons] at hall
      cases hitem : write item with
      | error e =>
          rw [hitem] at hall
          cases hall
      | ok told =>
          rw [hitem] at hall
          cases hrest : items.mapM write with
          | error e =>
              rw [hrest] at hall
              cases hall
          | ok rest =>
              rw [hrest] at hall
              cases hall
              rw [List.mapM_cons, h item told hitem, ih hrest]
              rfl

theorem toFailures?_of_failureMembers {failures : List Failure}
    {members others : List (String × Json)} (h : failureMembers failures = .ok members)
    (hothers : others.lookup "failures" = none) :
    toFailures? (.object (others ++ members)) = some failures := by
  cases failures with
  | nil =>
      cases h
      simp [toFailures?, Json.member?, hothers]
  | cons failure failures =>
      unfold failureMembers at h
      cases htold : (failure :: failures).mapM ofFailure with
      | error e =>
          simp only [htold] at h
          cases h
      | ok told =>
          simp only [htold] at h
          cases h
          have hread := mapM_of_mapM (fun _ _ => toFailure?_of_ofFailure) htold
          simp [toFailures?, Json.member?, Json.items?, List.lookup_append, hothers, hread]

/-- The value of a summary tells of this summary. -/
theorem toSummary?_of_ofSummary {summary : Summary} {value : Json}
    (h : ofSummary summary = .ok value) : toSummary? value = some summary := by
  unfold ofSummary at h
  cases hfixed : summary.fixed.mapM ofFixedFile with
  | error e =>
      rw [hfixed] at h
      cases h
  | ok fixed =>
      rw [hfixed] at h
      cases hmembers : failureMembers summary.failures with
      | error e =>
          rw [hmembers] at h
          cases h
      | ok members =>
          rw [hmembers] at h
          cases h
          have hread := mapM_of_mapM (fun _ _ => toFixedFile?_of_ofFixedFile) hfixed
          have hbound : summary.imports.toNat < 2 ^ 64 := summary.imports.toNat_lt
          let others : List (String × Json) :=
            [("dry_run", .bool summary.dryRun), ("scanned", .number summary.scanned),
              ("imports_rewritten", .number summary.imports.toNat), ("fixed", .array fixed)]
          have hfailures : toFailures? (.object (others ++ members)) = some summary.failures :=
            toFailures?_of_failureMembers hmembers (by simp [others, List.lookup_cons])
          show toSummary? (.object (others ++ members)) = some summary
          simp only [toSummary?, hfailures]
          simp only [others, Json.member?, Json.number?, Json.bool?, Json.items?,
            List.lookup_append, List.lookup_cons]
          simpa [hread] using hbound

end Read

section Printed

variable {α β : Type}

/-- The value is there if it can be printed; otherwise it is refused because of a path. -/
def PrintedIf (printable : Prop) (result : Except IoError α) : Prop :=
  (printable → ∃ value, result = .ok value) ∧ (¬printable → result = .error pathNotUtf8)

namespace PrintedIf

variable {p q : Prop} {result : Except IoError α}

theorem congr (h : PrintedIf p result) (hiff : p ↔ q) : PrintedIf q result :=
  ⟨fun hq => h.1 (hiff.2 hq), fun hq => h.2 (mt hiff.1 hq)⟩

theorem always (value : α) : PrintedIf True (pure value : Except IoError α) :=
  ⟨fun _ => ⟨value, rfl⟩, fun hnot => absurd trivial hnot⟩

/-- Of two parts both are to be printed; the first one is refused first. -/
theorem bind {rest : α → Except IoError β} (h : PrintedIf p result)
    (hrest : ∀ value, PrintedIf q (rest value)) : PrintedIf (p ∧ q) (result >>= rest) := by
  by_cases hp : p
  · obtain ⟨value, hvalue⟩ := h.1 hp
    rw [hvalue]
    exact (hrest value).congr (and_iff_right hp).symm
  · rw [h.2 hp]
    exact ⟨fun hboth => absurd hboth.1 hp, fun _ => rfl⟩

theorem map {rest : α → β} (h : PrintedIf p result) :
    PrintedIf p (result >>= fun value => pure (rest value)) :=
  (h.bind fun value => .always (rest value)).congr (by rw [and_true])

/-- A list can be printed if all of its items can. -/
theorem mapM {items : List α} {printable : α → Prop} {print : α → Except IoError β}
    (h : ∀ item, PrintedIf (printable item) (print item)) :
    PrintedIf (∀ item ∈ items, printable item) (items.mapM print) := by
  induction items with
  | nil => exact (PrintedIf.always []).congr (by simp)
  | cons item items ih =>
      rw [List.mapM_cons]
      exact ((h item).bind fun told => ih.map).congr (by simp)

end PrintedIf

theorem printedIf_ofPath (path : Path) : PrintedIf path.IsText (ofPath path) := by
  unfold ofPath Path.IsText
  cases path.string? with
  | none => exact ⟨nofun, fun _ => rfl⟩
  | some text => exact (PrintedIf.always _).congr (by simp)

theorem printedIf_ofFixedFile (file : Fix) : PrintedIf file.path.IsText (ofFixedFile file) :=
  (printedIf_ofPath file.path).map

theorem printedIf_ofFailure (failure : Failure) :
    PrintedIf (∀ path ∈ failure.path, path.IsText) (ofFailure failure) := by
  obtain ⟨path?, error⟩ := failure
  cases path? with
  | none => exact (PrintedIf.always _).congr (by simp)
  | some path =>
      have htold : PrintedIf path.IsText (ofPath path >>= fun told =>
          pure (Json.object [("path", told), ("error", .string error)])) :=
        (printedIf_ofPath path).map
      exact htold.congr (by simp)

theorem printedIf_failureMembers (failures : List Failure) :
    PrintedIf (∀ failure ∈ failures, ∀ path ∈ failure.path, path.IsText)
      (failureMembers failures) := by
  cases failures with
  | nil => exact (PrintedIf.always _).congr (by simp)
  | cons failure failures => exact (PrintedIf.mapM printedIf_ofFailure).map

/-- A summary can be printed if all of its paths are UTF-8, and is refused otherwise. -/
theorem printedIf_ofSummary (summary : Summary) :
    PrintedIf (∀ path ∈ summary.paths, path.IsText) (ofSummary summary) := by
  have hboth : PrintedIf _ (ofSummary summary) :=
    (PrintedIf.mapM printedIf_ofFixedFile).bind fun fixed =>
      (printedIf_failureMembers summary.failures).map
  refine hboth.congr ?_
  simp only [Summary.paths, List.mem_append, List.mem_map, List.mem_filterMap]
  constructor
  · rintro ⟨hfixed, hfailures⟩ path (⟨file, hfile, rfl⟩ | ⟨failure, hfailure, hpath⟩)
    · exact hfixed file hfile
    · exact hfailures failure hfailure path hpath
  · intro hpaths
    exact ⟨fun file hfile => hpaths _ (.inl ⟨file, hfile, rfl⟩),
      fun failure hfailure path hpath => hpaths path (.inr ⟨failure, hfailure, hpath⟩)⟩

end Printed

section Tell

variable {summary : Summary} {streams : Streams}

/-- Of fixes and failures nothing is printed. -/
theorem tell_of_not_done {callback : Callback} (h : ∀ summary, callback ≠ .done summary)
    (streams : Streams) : reporter.tell callback streams = (.ok (), streams) := by
  cases callback with
  | fixed file => rfl
  | failed failure => rfl
  | done summary => exact absurd rfl (h summary)

/-- A summary whose paths are all UTF-8 is printed as a document that tells of it, with the end
of a line after it. -/
theorem tell_done_of_text (hout : streams.out.limit = none)
    (h : ∀ path ∈ summary.paths, path.IsText) :
    ∃ text, Tells text summary ∧
      reporter.tell (.done summary) streams = (.ok (), streams.printed text) := by
  obtain ⟨value, hvalue⟩ := (printedIf_ofSummary summary).1 h
  have hprint : print summary = .ok (Utf8.encode (value.pretty ++ ['\n'])) := by
    unfold print
    rw [hvalue]
    rfl
  refine ⟨value.pretty, ?_, ?_⟩
  · unfold Tells
    rw [Json.read?_pretty]
    exact toSummary?_of_ofSummary hvalue
  · simp only [reporter, hprint, Stream.write, hout, Streams.printed]

/-- A summary with a path that is not UTF-8 is refused, and nothing of it is printed. -/
theorem tell_done_of_not_text (h : ¬∀ path ∈ summary.paths, path.IsText) :
    reporter.tell (.done summary) streams = (.error pathNotUtf8, streams) := by
  have hprint : print summary = .error pathNotUtf8 := by
    unfold print
    rw [(printedIf_ofSummary summary).2 h]
    rfl
  simp only [reporter, hprint]

/-- What is printed for a summary tells of it, so nothing else is printed for another one. -/
theorem eq_of_tell_done {other : Summary} {after : Streams} (hout : streams.out.limit = none)
    (h : reporter.tell (.done summary) streams = (.ok (), after))
    (hother : reporter.tell (.done other) streams = (.ok (), after)) : summary = other := by
  have hprinted (told : Summary) (htold : reporter.tell (.done told) streams = (.ok (), after)) :
      ∃ text, Tells text told ∧ streams.printed text = after := by
    by_cases htext : ∀ path ∈ told.paths, path.IsText
    · obtain ⟨text, htells, htell⟩ := tell_done_of_text hout htext
      rw [htell] at htold
      exact ⟨text, htells, congrArg Prod.snd htold⟩
    · rw [tell_done_of_not_text htext] at htold
      cases htold
  obtain ⟨text, htells, hafter⟩ := hprinted summary h
  obtain ⟨text', htells', hafter'⟩ := hprinted other hother
  have hsame : Utf8.encode (text ++ ['\n']) = Utf8.encode (text' ++ ['\n']) := by
    have hreceived := congrArg (fun streams : Streams => streams.out.received)
      (hafter.trans hafter'.symm)
    exact List.append_cancel_left hreceived
  have htext : text = text' := by
    have hdecoded := congrArg Utf8.decode? hsame
    rw [Utf8.decode?_encode, Utf8.decode?_encode, Option.some_inj] at hdecoded
    exact List.append_cancel_right hdecoded
  unfold Tells at htells htells'
  rw [htext, htells', Option.some_inj] at htells
  exact htells.symm

end Tell

end Document

/-- What the reporter for programs prints.  A summary whose paths are all UTF-8 is printed as one
document, which by the grammar of JSON tells of this very summary, so that no two summaries
are printed alike; any other summary is refused, and nothing is printed.  A run prints the
document of the summary that it returns, and nothing if it returns none. -/
theorem document_completeTree (settings : Settings) (streams : Streams) (disk : Disk)
    (hout : streams.out.limit = none) :
    let tell (summary : Summary) := Document.reporter.tell (.done summary) streams
    let run := completeTree settings Document.reporter streams disk
    (∀ summary, (∀ path ∈ summary.paths, path.IsText) →
      ∃ text, Document.Tells text summary ∧ tell summary = (.ok (), streams.printed text)) ∧
    (∀ summary, (∃ path ∈ summary.paths, ¬path.IsText) →
      ∃ cause, tell summary = (.error cause, streams)) ∧
    (∀ summary other after, tell summary = (.ok (), after) → tell other = (.ok (), after) →
      summary = other) ∧
    (∀ summary, run.result = .ok summary →
      ∃ text, Document.Tells text summary ∧ run.final.reporter = streams.printed text) ∧
    (∀ e, run.result = .error e → run.final.reporter = streams) := by
  intro tell run
  have hsilent (callback : Callback) (memory : Streams)
      (hcallback : ∀ summary, callback ≠ .done summary) (hmemory : memory = streams) :
      (Document.reporter.tell callback memory).2 = streams := by
    rw [Document.tell_of_not_done hcallback, hmemory]
  have hends := completeTree_remembers (· = streams) hsilent rfl settings disk
  refine ⟨fun summary => Document.tell_done_of_text hout, ?_, ?_, ?_, ?_⟩
  · intro summary hpaths
    exact ⟨_, Document.tell_done_of_not_text (by simpa using hpaths)⟩
  · exact fun summary other after => Document.eq_of_tell_done hout
  · intro summary hresult
    rcases hends with ⟨-, e, herror⟩ | ⟨state, hstate, hfinal, hreported⟩
    · rw [hresult] at herror
      cases herror
    · rw [hresult, hstate] at hreported
      by_cases htext : ∀ path ∈ state.summary.paths, path.IsText
      · obtain ⟨text, htells, htell⟩ := Document.tell_done_of_text hout htext
        rw [htell] at hreported
        cases hreported
        refine ⟨text, htells, ?_⟩
        rw [hfinal, RunState.told, hstate, htell]
      · rw [Document.tell_done_of_not_text htext] at hreported
        cases hreported
  · intro e hresult
    rcases hends with ⟨hfinal, -⟩ | ⟨state, hstate, hfinal, hreported⟩
    · exact hfinal
    · rw [hresult, hstate] at hreported
      by_cases htext : ∀ path ∈ state.summary.paths, path.IsText
      · obtain ⟨text, -, htell⟩ := Document.tell_done_of_text hout htext
        rw [htell] at hreported
        cases hreported
      · rw [hfinal, RunState.told, hstate, Document.tell_done_of_not_text htext]

/-- Quotes, backslashes and control characters can be read back, but a byte that is no part of
a text has no place in a document. -/
theorem document_completeTree_sample :
    let run := completeTree sampleSettings Document.reporter {} sampleDisk
    let odd : Summary :=
      { dryRun := true, scanned := 0, imports := 18446744073709551615
        fixed := [{ path := Path.ofString "a\"\\\t\x01.ts", imports := 10 }]
        failures := [{ path := none, error := "\n\x7f\x1f\u00e9" }] }
    let broken : Summary := { dryRun := false, fixed := [{ path := ⟨[0xFF]⟩, imports := 1 }] }
    run.result = .ok sampleSummary ∧
      (∃ text, Document.Tells text sampleSummary ∧
        run.final.reporter.out.received = Utf8.encode (text ++ ['\n'])) ∧
      (∃ text, Document.Tells text odd ∧
        Document.reporter.tell (.done odd) {} = (.ok (), Streams.printed {} text)) ∧
      ∃ cause, Document.reporter.tell (.done broken) {} = (.error cause, {}) := by
  intro run odd broken
  obtain ⟨hprinted, hrefused, -, hreturned, -⟩ :=
    document_completeTree sampleSettings {} sampleDisk rfl
  have hresult : run.result = .ok sampleSummary := by
    apply eq_ok_of_toOption
    simp only [run]
    rw [completeTree_sample sampleSettings Document.reporter {} Document.reporter_leavesDisk rfl
      rfl rfl]
    decide +kernel
  obtain ⟨text, htells, hreporter⟩ := hreturned sampleSummary hresult
  refine ⟨hresult, ⟨text, htells, ?_⟩, hprinted odd (by decide +kernel), hrefused broken ?_⟩
  · simp only [run, hreporter, Streams.printed, List.nil_append]
  · exact ⟨⟨[0xFF]⟩, by decide, by decide⟩

end ExplicitImports
