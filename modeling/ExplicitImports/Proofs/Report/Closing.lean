import ExplicitImports.Output.Console
import ExplicitImports.Proofs.Report.Document
import ExplicitImports.Proofs.Report.Ending

/-!
# The closing report

Where failures are passed over, no file ends a run: if its patterns can be read, its root is
there and its streams take everything, it comes to the report of its summary.  The console
shows every summary.  The reporter for programs has no document for a summary with a path
that is not UTF-8, so there a file can still make the run fail by its name, after all the work
was done.

* `Console.tell_of_unlimited` — what a console does with streams that take everything.
* `closing_completeTree` — the closing report of a run, for both reporters.
* `not_forall_document_ok` — a file whose name is no text.
-/

namespace ExplicitImports

/-- Both streams take everything that is written to them. -/
structure Streams.Unlimited (streams : Streams) : Prop where
  out : streams.out.limit = none
  err : streams.err.limit = none

theorem Stream.write_of_unlimited {stream : Stream} (h : stream.limit = none) (bytes : Bytes) :
    stream.write bytes = (.ok (), { stream with received := stream.received ++ bytes }) := by
  simp only [write, h]

namespace Console

variable (console : Console) {streams : Streams} (h : streams.Unlimited)

include h

/-- A console shows everything on streams that take everything. -/
theorem tell_of_unlimited (callback : Callback) :
    console.reporter.tell callback streams =
      (.ok (),
        { out := { streams.out with
            received := streams.out.received ++ Utf8.ofString (console.outText callback) }
          err := { streams.err with
            received := streams.err.received ++ Utf8.ofString (console.errText callback) } }) := by
  have hempty : Utf8.ofString "" = [] := rfl
  cases callback with
  | fixed file => simp [reporter, Stream.write_of_unlimited h.out, errText, hempty]
  | failed failure => simp [reporter, Stream.write_of_unlimited h.err, outText, hempty]
  | done summary => simp [reporter, Stream.write_of_unlimited h.err, outText, hempty]

/-- It takes everything in, and the streams go on to take everything. -/
theorem accepts_of_unlimited (callback : Callback) :
    (console.reporter.tell callback streams).1 = .ok () ∧
      (console.reporter.tell callback streams).2.Unlimited := by
  rw [console.tell_of_unlimited h callback]
  exact ⟨rfl, h.out, h.err⟩

/-- What the streams have received after these callbacks, if they take everything. -/
theorem remembered_of_unlimited (callbacks : List Callback) :
    console.reporter.remembered streams callbacks =
      { out := { streams.out with
          received := streams.out.received ++
            callbacks.flatMap fun callback => Utf8.ofString (console.outText callback) }
        err := { streams.err with
          received := streams.err.received ++
            callbacks.flatMap fun callback => Utf8.ofString (console.errText callback) } } := by
  induction callbacks generalizing streams with
  | nil => simp [Reporter.remembered]
  | cons callback callbacks ih =>
      have htold := console.tell_of_unlimited h callback
      have hrest : console.reporter.remembered streams (callback :: callbacks) =
          console.reporter.remembered (console.reporter.tell callback streams).2 callbacks := rfl
      rw [hrest, ih (console.accepts_of_unlimited h callback).2, htold]
      simp

end Console

/-- How a run ends where failures are passed over, its patterns can be read, its root is there
and its streams take everything.  With a console it returns a summary, and after what the error
stream has got before, it gets the line of the summary, unless the console is quiet, in which
case it gets no more.  With the reporter for programs it comes to its
report as well, and if all paths of the summary are UTF-8 it returns the summary and has
printed the document; but if one of them is not, it ends with an error of the output, and
nothing was printed. -/
theorem closing_completeTree (settings : Settings) (console : Console) (streams : Streams)
    (disk : Disk) (kind : NodeKind) (hpolicy : settings.onFailure = .goOn)
    (hpatterns : ∀ text ∈ settings.ignorePatterns, ∃ pattern, Glob.Pattern.parse text = .ok pattern)
    (hroot : disk.stat settings.root = .ok kind) (hstreams : streams.Unlimited) :
    let shown := completeTree settings console.reporter streams disk
    let documented := completeTree settings Document.reporter streams disk
    (∃ told summary, shown.result = .ok summary ∧
      shown.final.callbacks = told ++ [.done summary] ∧
      shown.final.reporter.err.received =
        (console.reporter.remembered streams told).err.received ++
          if console.quiet then []
          else Utf8.ofString (Style.cyan.paint console.color (summary.line ++ "\n"))) ∧
    ∃ told summary, documented.final.callbacks = told ++ [.done summary] ∧
      ((∀ path ∈ summary.paths, path.IsText) →
        documented.result = .ok summary ∧
          ∃ text, Document.Tells text summary ∧
            documented.final.reporter = streams.printed text) ∧
      ((∃ path ∈ summary.paths, ¬path.IsText) →
        documented.result = .error (.output Document.pathNotUtf8) ∧
          documented.final.reporter = streams) := by
  intro shown documented
  obtain ⟨ignored, hignored⟩ := exists_parseAll hpatterns
  refine ⟨?_, ?_⟩
  · obtain ⟨state, hstate, hfinal, hresult⟩ :=
      completeTree_reports Streams.Unlimited
        (fun callback _ _ hmemory => console.accepts_of_unlimited hmemory callback)
        hstreams hpolicy hignored hroot
    have hcallbacks : shown.final.callbacks = state.callbacks ++ [.done state.summary] := by
      rw [hfinal, RunState.callbacks_told]
    have hanswer := (console.accepts_of_unlimited hstate (.done state.summary)).1
    rw [hanswer] at hresult
    refine ⟨state.callbacks, state.summary, hresult, hcallbacks, ?_⟩
    have hreporter : shown.final.reporter = _ :=
      reporter_completeTree settings console.reporter streams disk
    rw [hreporter, hcallbacks, console.remembered_of_unlimited hstreams,
      console.remembered_of_unlimited hstreams]
    cases hquiet : console.quiet <;> simp [Console.errText, Console.closing, hquiet, Utf8.ofString]
  · have hsilent (callback : Callback) (memory : Streams)
        (hcallback : ∀ summary, callback ≠ .done summary) (hmemory : memory = streams) :
        (Document.reporter.tell callback memory).1 = .ok () ∧
          (Document.reporter.tell callback memory).2 = streams := by
      rw [Document.tell_of_not_done hcallback]
      exact ⟨rfl, hmemory⟩
    obtain ⟨state, hstate, hfinal, hresult⟩ :=
      completeTree_reports (· = streams) hsilent rfl hpolicy hignored hroot
    refine ⟨state.callbacks, state.summary, ?_, ?_, ?_⟩
    · rw [hfinal, RunState.callbacks_told]
    · intro hpaths
      obtain ⟨text, htells, htell⟩ := Document.tell_done_of_text hstreams.out hpaths
      rw [hstate, htell] at hresult
      refine ⟨hresult, text, htells, ?_⟩
      rw [hfinal, RunState.told, hstate, htell]
    · intro hpaths
      have htell : Document.reporter.tell (.done state.summary) streams =
          (.error Document.pathNotUtf8, streams) :=
        Document.tell_done_of_not_text (by simpa using hpaths)
      rw [hstate, htell] at hresult
      refine ⟨hresult, ?_⟩
      rw [hfinal, RunState.told, hstate, htell]

/-- A directory with one file, whose name is no text. -/
def byteNamedDisk : Disk where
  nodes :=
    [((Path.ofString "api").names, .dir),
      ((Path.mk (Utf8.ofString "api/" ++ [0xFF] ++ Utf8.ofString ".ts")).names,
        .file (Utf8.ofString "import a from './a';\n"))]

/-- The console shows the file with a sign in the place of the byte; the reporter for programs
has been told of the same fix, and refuses the summary. -/
theorem closing_completeTree_byteNamed :
    let settings : Settings := { onFailure := .goOn }
    let shown := completeTree settings (Console.reporter {}) {} byteNamedDisk
    let documented := completeTree settings Document.reporter {} byteNamedDisk
    (∃ summary, shown.result = .ok summary ∧ shown.final.reporter.err.received =
      Utf8.ofString "1 file fixed, 1 import rewritten (1 scanned)\n") ∧
    documented.final.fixed.length = 1 ∧
    documented.result = .error (.output Document.pathNotUtf8) ∧
    documented.final.reporter = {} := by
  intro settings shown documented
  obtain ⟨⟨earlier, summary, hok, hshown, herr⟩, told, reported, hcallbacks, -, hrefused⟩ :=
    closing_completeTree settings {} {} byteNamedDisk .dir rfl (by simp [settings]) rfl ⟨rfl, rfl⟩
  let file : Fix := { path := ⟨Utf8.ofString "api/" ++ [0xFF] ++ Utf8.ofString ".ts"⟩, imports := 1 }
  let expected : Summary := { dryRun := false, scanned := 1, imports := 1, fixed := [file] }
  have htold : shown.final.callbacks = [.fixed file] ++ [.done expected] := by decide +kernel
  obtain ⟨rfl, hdone⟩ := List.append_inj' (hshown.symm.trans htold) rfl
  have hlast : documented.final.callbacks.getLast? = some (.done expected) := by
    decide +kernel
  have hreported : reported = expected := by
    rw [hcallbacks, List.getLast?_concat, Option.some_inj] at hlast
    exact Callback.done.inj hlast
  have hnone : ∃ path ∈ expected.paths, ¬path.IsText := by decide +kernel
  obtain ⟨hresult, hreporter⟩ := hrefused (hreported ▸ hnone)
  refine ⟨⟨summary, hok, ?_⟩, by decide +kernel, hresult, hreporter⟩
  rw [herr, Callback.done.inj (List.singleton_inj.1 hdone)]
  decide +kernel

/-- So it is not true for every disk that the run returns a summary. -/
theorem not_forall_document_ok :
    ¬∀ (settings : Settings) (disk : Disk) (kind : NodeKind), settings.onFailure = .goOn →
      (∀ text ∈ settings.ignorePatterns, ∃ pattern, Glob.Pattern.parse text = .ok pattern) →
      disk.stat settings.root = .ok kind →
        ∃ summary, (completeTree settings Document.reporter {} disk).result = .ok summary := by
  intro h
  obtain ⟨summary, hresult⟩ := h { onFailure := .goOn } byteNamedDisk .dir rfl (by simp) rfl
  have hnone : (completeTree { onFailure := .goOn } Document.reporter {}
      byteNamedDisk).result.toOption = none := by
    decide +kernel
  rw [hresult] at hnone
  cases hnone

end ExplicitImports
