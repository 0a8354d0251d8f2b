import ExplicitImports.Proofs.Report.Transcript

/-!
# Output that is lost

A stream with a limit takes what fits and refuses the rest.  A notice is written in pieces, and
the limit may be reached in any of them.  The run then ends at once, and what its streams have
received is the beginning of what they would have received without limits.

* `Stream.writeEach_of_within`, `Stream.writeEach_of_beyond` — writes one after another, up to the
  first that is refused.
* `Printer.writes`, `Printer.tell_eq_writeEach` — the writes that a printing reporter makes when it
  is told something.
* `Printer.follows_withLimits` — with limits a printer follows the one without, up to the first
  callback that does not fit.
* `limited_completeTree` — a run with limits is the run without them, cut where the limits are
  reached.
-/

namespace ExplicitImports

open RunM

namespace Stream

/-- Pieces are written one after another, up to the first that is refused. -/
def writeEach (stream : Stream) : List Bytes → Except IoError Unit × Stream
  | [] => (.ok (), stream)
  | piece :: pieces =>
      match stream.write piece with
      | (.ok (), after) => after.writeEach pieces
      | (.error cause, after) => (.error cause, after)

/-- There is room for nothing on every stream. -/
theorem write_nil (stream : Stream) : stream.write [] = (.ok (), stream) := by
  unfold write
  split <;> simp

/-- In how many pieces something is written makes no difference. -/
theorem writeEach_eq_write (stream : Stream) (pieces : List Bytes) :
    stream.writeEach pieces = stream.write pieces.flatten := by
  induction pieces generalizing stream with
  | nil => exact stream.write_nil.symm
  | cons piece pieces ih =>
      rw [writeEach, List.flatten_cons, write_append]
      cases stream.write piece with
      | mk result after =>
          cases result with
          | error cause => rfl
          | ok _ => exact ih after

/-- So many bytes do not go past the limit, if there is one. -/
def Within (limit : Option Nat) (bytes : Bytes) : Prop :=
  ∀ most ∈ limit, bytes.length ≤ most

section Limit

variable {stream : Stream} {pieces : List Bytes}

theorem writeEach_of_within (h : Within stream.limit (stream.received ++ pieces.flatten)) :
    stream.writeEach pieces =
      (.ok (), { stream with received := stream.received ++ pieces.flatten }) := by
  rw [writeEach_eq_write]
  unfold write
  cases hlimit : stream.limit with
  | none => rfl
  | some most =>
      have hroom : (stream.received ++ pieces.flatten).length ≤ most := h most (by rw [hlimit]; rfl)
      rw [List.length_append] at hroom
      exact if_pos (by omega)

/-- What goes past the limit is refused; what fits of it was received. -/
theorem writeEach_of_beyond (hbefore : Within stream.limit stream.received)
    (h : ¬Within stream.limit (stream.received ++ pieces.flatten)) :
    (stream.writeEach pieces).1 = .error limitReached ∧
      (stream.writeEach pieces).2.received <+: stream.received ++ pieces.flatten := by
  rw [writeEach_eq_write]
  unfold write
  cases hlimit : stream.limit with
  | none =>
      have hwithin : Within stream.limit (stream.received ++ pieces.flatten) := by
        rw [hlimit]
        nofun
      exact absurd hwithin h
  | some most =>
      rw [hlimit] at hbefore h
      have hreceived : stream.received.length ≤ most := hbefore most rfl
      have hroom : ¬pieces.flatten.length ≤ most - stream.received.length := by
        intro hroom
        apply h
        intro other hother
        cases hother
        rw [List.length_append]
        omega
      dsimp only
      rw [if_neg hroom]
      exact ⟨rfl, (List.prefix_append_right_inj _).2 (List.take_prefix _ _)⟩

end Limit

end Stream

namespace Streams

/-- Pieces are written to the output stream and then to the error stream. -/
def writeEach (streams : Streams) (out err : List Bytes) : Except IoError Unit × Streams :=
  match streams.out.writeEach out with
  | (.error cause, after) => (.error cause, { streams with out := after })
  | (.ok (), after) =>
      let (result, err) := streams.err.writeEach err
      (result, { out := after, err })

/-- The streams with these limits. -/
def withLimits (streams : Streams) (out err : Option Nat) : Streams where
  out := { streams.out with limit := out }
  err := { streams.err with limit := err }

/-- What both streams have received does not go past these limits. -/
structure Within (out err : Option Nat) (streams : Streams) : Prop where
  out : Stream.Within out streams.out.received
  err : Stream.Within err streams.err.received

/-- Both streams have received the beginning of what the other ones have. -/
structure Begins (streams others : Streams) : Prop where
  out : streams.out.received <+: others.out.received
  err : streams.err.received <+: others.err.received

/-- The streams after pieces were received on both. -/
def received (streams : Streams) (out err : List Bytes) : Streams where
  out := { streams.out with received := streams.out.received ++ out.flatten }
  err := { streams.err with received := streams.err.received ++ err.flatten }

/-- Pieces for one stream are as good as one write. -/
theorem writeEach_out (streams : Streams) (out : List Bytes) :
    streams.writeEach out [] =
      ((streams.out.write out.flatten).1,
        { streams with out := (streams.out.write out.flatten).2 }) := by
  rw [writeEach, Stream.writeEach_eq_write]
  cases streams.out.write out.flatten with
  | mk result after => cases result <;> rfl

theorem writeEach_err (streams : Streams) (err : List Bytes) :
    streams.writeEach [] err =
      ((streams.err.write err.flatten).1,
        { streams with err := (streams.err.write err.flatten).2 }) := by
  rw [writeEach, Stream.writeEach, Stream.writeEach_eq_write]

theorem writeEach_of_unlimited {streams : Streams} (h : streams.Unlimited) (out err : List Bytes) :
    streams.writeEach out err = (.ok (), streams.received out err) := by
  have hout : Stream.Within streams.out.limit (streams.out.received ++ out.flatten) := by
    rw [h.out]
    nofun
  have herr : Stream.Within streams.err.limit (streams.err.received ++ err.flatten) := by
    rw [h.err]
    nofun
  simp only [writeEach, Stream.writeEach_of_within hout, Stream.writeEach_of_within herr]
  rfl

theorem Begins.refl (streams : Streams) : streams.Begins streams :=
  ⟨List.prefix_refl _, List.prefix_refl _⟩

theorem Begins.trans {streams others last : Streams} (h : streams.Begins others)
    (h' : others.Begins last) : streams.Begins last :=
  ⟨h.out.trans h'.out, h.err.trans h'.err⟩

theorem Within.of_begins {out err : Option Nat} {streams others : Streams}
    (h : others.Within out err) (hbegins : streams.Begins others) : streams.Within out err :=
  ⟨fun most hmost => hbegins.out.length_le.trans (h.out most hmost),
    fun most hmost => hbegins.err.length_le.trans (h.err most hmost)⟩

/-- What has been received stays. -/
theorem begins_writeEach (streams : Streams) (out err : List Bytes) :
    streams.Begins (streams.writeEach out err).2 := by
  have hout := streams.out.received_prefix_write out.flatten
  have herr := streams.err.received_prefix_write err.flatten
  unfold writeEach
  rw [Stream.writeEach_eq_write, Stream.writeEach_eq_write]
  cases hwrite : streams.out.write out.flatten with
  | mk result after =>
      rw [hwrite] at hout
      cases result with
      | error cause => exact ⟨hout, List.prefix_refl _⟩
      | ok _ => exact ⟨hout, herr⟩

section Limits

variable {streams : Streams} {outLimit errLimit : Option Nat} {out err : List Bytes}

/-- Pieces that fit are received as they would be without limits. -/
theorem writeEach_withLimits_of_within (h : (streams.received out err).Within outLimit errLimit) :
    (streams.withLimits outLimit errLimit).writeEach out err =
      (.ok (), (streams.received out err).withLimits outLimit errLimit) := by
  have hout : (streams.withLimits outLimit errLimit).out.writeEach out = _ :=
    Stream.writeEach_of_within h.out
  have herr : (streams.withLimits outLimit errLimit).err.writeEach err = _ :=
    Stream.writeEach_of_within h.err
  simp only [writeEach, hout, herr]
  rfl

/-- Otherwise one of them is refused, and what was received is the beginning of it. -/
theorem writeEach_withLimits_of_beyond (hbefore : streams.Within outLimit errLimit)
    (h : ¬(streams.received out err).Within outLimit errLimit) :
    ((streams.withLimits outLimit errLimit).writeEach out err).1 = .error Stream.limitReached ∧
      ((streams.withLimits outLimit errLimit).writeEach out err).2.Begins
        (streams.received out err) := by
  let limited := streams.withLimits outLimit errLimit
  by_cases hfits : Stream.Within outLimit (streams.out.received ++ out.flatten)
  · have herr : ¬Stream.Within errLimit (streams.err.received ++ err.flatten) :=
      fun herr => h ⟨hfits, herr⟩
    have hout : limited.out.writeEach out = _ := Stream.writeEach_of_within hfits
    obtain ⟨hrefused, hbegins⟩ : (limited.err.writeEach err).1 = _ ∧ _ :=
      Stream.writeEach_of_beyond hbefore.err herr
    simp only [writeEach, limited, hout]
    exact ⟨hrefused, List.prefix_refl _, hbegins⟩
  · obtain ⟨hrefused, hbegins⟩ : (limited.out.writeEach out).1 = _ ∧ _ :=
      Stream.writeEach_of_beyond hbefore.out hfits
    show (limited.writeEach out err).1 = _ ∧ (limited.writeEach out err).2.Begins _
    unfold writeEach
    cases hwrite : limited.out.writeEach out with
    | mk result after =>
        rw [hwrite] at hrefused hbegins
        cases hrefused
        exact ⟨rfl, hbegins, List.prefix_append _ _⟩

end Limits

end Streams

namespace Span

/-- What is written for a span: with color, the style is set and reset by writes of their own. -/
def pieces (color : Bool) (span : Span) : List Bytes :=
  match color, span.style with
  | true, some style =>
      [Utf8.ofString style.start, Utf8.ofString span.text, Utf8.ofString Style.reset]
  | _, _ => [Utf8.ofString span.text]

theorem flatten_pieces (color : Bool) (span : Span) :
    (span.pieces color).flatten = Utf8.ofString (span.shown color) := by
  obtain ⟨style?, text⟩ := span
  cases style? with
  | none => cases color <;> simp [pieces, shown]
  | some style => cases color <;> simp [pieces, shown, Style.paint]

theorem flatten_flatMap_pieces (color : Bool) (spans : List Span) :
    (spans.flatMap (pieces color)).flatten = bytes color spans := by
  induction spans with
  | nil => rfl
  | cons span spans ih =>
      rw [List.flatMap_cons, List.flatten_append, ih, span.flatten_pieces]
      rfl

end Span

/-- The reporters that print. -/
inductive Printer where
  | console (console : Console)
  | document

namespace Printer

def reporter : Printer → Reporter Streams
  | console shown => shown.reporter
  | document => Document.reporter

theorem reporter_leavesDisk (printer : Printer) : printer.reporter.LeavesDisk := by
  cases printer with
  | console shown => exact shown.reporter_leavesDisk
  | document => exact Document.reporter_leavesDisk

/-- What is written to the output stream and to the error stream about a callback, if it can be
printed. -/
def writes : Printer → Callback → Except IoError (List Bytes × List Bytes)
  | console shown, .fixed file =>
      .ok ((shown.spans (.fixed file)).flatMap (Span.pieces shown.color), [])
  | console shown, callback => .ok ([], (shown.spans callback).flatMap (Span.pieces shown.color))
  | document, .done summary => do
      return ([Utf8.encode (← Document.ofSummary summary).pretty, Utf8.encode ['\n']], [])
  | document, _ => .ok ([], [])

/-- A printer makes its writes one after another. -/
theorem tell_eq_writeEach (printer : Printer) (callback : Callback) (streams : Streams) :
    printer.reporter.tell callback streams =
      match printer.writes callback with
      | .ok (out, err) => streams.writeEach out err
      | .error cause => (.error cause, streams) := by
  cases printer with
  | console shown =>
      cases callback with
      | fixed file =>
          simp only [writes, Streams.writeEach_out, Span.flatten_flatMap_pieces,
            ← shown.ofString_outText]
          rfl
      | failed failure =>
          have htext : Utf8.ofString (shown.errText (.failed failure)) = _ :=
            shown.ofString_errText rfl
          simp only [writes, Streams.writeEach_err, Span.flatten_flatMap_pieces, ← htext]
          rfl
      | done summary =>
          have htext : Utf8.ofString (shown.errText (.done summary)) = _ :=
            shown.ofString_errText rfl
          simp only [writes, Streams.writeEach_err, Span.flatten_flatMap_pieces, ← htext]
          rfl
  | document =>
      cases callback with
      | fixed file => rfl
      | failed failure => rfl
      | done summary =>
          simp only [reporter, Document.reporter, Document.print, writes]
          cases Document.ofSummary summary with
          | error cause => rfl
          | ok value =>
              have hbytes : Utf8.encode (value.pretty ++ ['\n']) =
                  [Utf8.encode value.pretty, Utf8.encode ['\n']].flatten := by
                simp
              show _ = streams.writeEach [Utf8.encode value.pretty, Utf8.encode ['\n']] []
              rw [Streams.writeEach_out, ← hbytes]
              rfl

/-- What the streams have received only grows. -/
theorem begins_tell (printer : Printer) (callback : Callback) (streams : Streams) :
    streams.Begins (printer.reporter.tell callback streams).2 := by
  rw [tell_eq_writeEach]
  cases printer.writes callback with
  | error cause => exact .refl streams
  | ok pieces => exact streams.begins_writeEach pieces.1 pieces.2

/-- With limits, a printer does what it does without, as long as everything fits; a callback that
goes past a limit is refused. -/
theorem follows_withLimits (printer : Printer) (outLimit errLimit : Option Nat) :
    printer.reporter.Follows printer.reporter
      (fun streams limited => streams.Unlimited ∧ streams.Within outLimit errLimit ∧
        limited = streams.withLimits outLimit errLimit)
      (fun streams limited => ¬streams.Within outLimit errLimit ∧ limited.Begins streams)
      Stream.limitReached := by
  refine ⟨?_, ?_⟩
  · rintro callback streams limited ⟨hunlimited, hwithin, rfl⟩
    rw [tell_eq_writeEach, tell_eq_writeEach]
    cases printer.writes callback with
    | error cause => exact .inl ⟨rfl, hunlimited, hwithin, rfl⟩
    | ok pieces =>
        obtain ⟨out, err⟩ := pieces
        dsimp only
        rw [Streams.writeEach_of_unlimited hunlimited]
        by_cases hfits : (streams.received out err).Within outLimit errLimit
        · rw [Streams.writeEach_withLimits_of_within hfits]
          exact .inl ⟨rfl, ⟨hunlimited.out, hunlimited.err⟩, hfits, rfl⟩
        · obtain ⟨hrefused, hbegins⟩ := Streams.writeEach_withLimits_of_beyond hwithin hfits
          exact .inr ⟨hrefused, hfits, hbegins⟩
  · rintro callback streams limited ⟨hbeyond, hbegins⟩
    have hgrows := printer.begins_tell callback streams
    exact ⟨fun hwithin => hbeyond (hwithin.of_begins hgrows), hbegins.trans hgrows⟩

end Printer

/-- Lost output is not silent.  A run that prints, to streams with these limits, against the same
run without limits: on either stream the beginning of the other output was received.  If that
output does not go past the limits, both runs do the same and have the same result.  Otherwise
the run ends with an error of the output, right after the callback about which not everything
could be written: what happened is the beginning of what happens without limits, so that no other
file was taken up and nobody was told anything more. -/
theorem limited_completeTree (settings : Settings) (printer : Printer)
    (outLimit errLimit : Option Nat) (disk : Disk) :
    let full := completeTree settings printer.reporter {} disk
    let limited :=
      completeTree settings printer.reporter (Streams.withLimits {} outLimit errLimit) disk
    limited.final.reporter.out.received <+: full.final.reporter.out.received ∧
      limited.final.reporter.err.received <+: full.final.reporter.err.received ∧
      (full.final.reporter.Within outLimit errLimit →
        limited.result = full.result ∧ limited.final.trace = full.final.trace ∧
          limited.final.disk = full.final.disk ∧
          limited.final.reporter.out.received = full.final.reporter.out.received ∧
          limited.final.reporter.err.received = full.final.reporter.err.received) ∧
      (¬full.final.reporter.Within outLimit errLimit →
        limited.result = .error (.output Stream.limitReached) ∧
          (∃ before callback, limited.final.trace = before ++ [.called callback]) ∧
          limited.final.trace <+: full.final.trace) := by
  intro full limited
  have hstart : Streams.Within outLimit errLimit {} :=
    ⟨fun _ _ => Nat.zero_le _, fun _ _ => Nat.zero_le _⟩
  rcases completeTree_follows (printer.follows_withLimits outLimit errLimit)
      printer.reporter_leavesDisk printer.reporter_leavesDisk ⟨⟨rfl, rfl⟩, hstart, rfl⟩ settings
      disk with ⟨hresult, htwins⟩ | ⟨e, hresult, hcut⟩
  · obtain ⟨-, hwithin, hlimited⟩ := htwins.reporter
    have hout : limited.final.reporter.out.received = full.final.reporter.out.received :=
      congrArg (fun streams => streams.out.received) hlimited
    have herr : limited.final.reporter.err.received = full.final.reporter.err.received :=
      congrArg (fun streams => streams.err.received) hlimited
    refine ⟨hout ▸ List.prefix_refl _, herr ▸ List.prefix_refl _, ?_, ?_⟩
    · exact fun _ => ⟨hresult, htwins.trace, htwins.disk, hout, herr⟩
    · exact fun hbeyond => absurd hwithin hbeyond
  · obtain ⟨hbeyond, hbegins⟩ := hcut.reporter
    refine ⟨hbegins.out, hbegins.err, fun hwithin => absurd hwithin hbeyond, fun _ => ?_⟩
    rw [hcut.error_eq] at hresult
    exact ⟨hresult, hcut.last, hcut.trace⟩

/-- The sample with room for twenty bytes of notices: the second one is cut in the middle of its
label.  With room for forty bytes nothing is lost. -/
theorem limited_completeTree_sample :
    let run (streams : Streams) :=
      completeTree sampleSettings (Printer.console {}).reporter streams sampleDisk
    let limited := run (Streams.withLimits {} (some 20) none)
    limited.result = .error (.output Stream.limitReached) ∧
      limited.final.reporter.out.received = Utf8.ofString "Fixed: r/a/z.ts\nFixe" ∧
      (run (Streams.withLimits {} (some 40) none)).result = (run {}).result := by
  intro run limited
  have hrun (streams : Streams) := completeTree_sample sampleSettings (Printer.console {}).reporter
    streams (Printer.reporter_leavesDisk _) rfl rfl rfl
  have hout : (run {}).final.reporter.out.received =
      Utf8.ofString "Fixed: r/a/z.ts\nFixed: r/a.ts\n" := by
    simp only [run, hrun]
    decide +kernel
  have hlength : (run {}).final.reporter.out.received.length = 30 := by
    rw [hout]
    decide +kernel
  obtain ⟨-, -, -, hbeyond⟩ :=
    limited_completeTree sampleSettings (.console {}) (some 20) none sampleDisk
  obtain ⟨-, -, hwithin, -⟩ :=
    limited_completeTree sampleSettings (.console {}) (some 40) none sampleDisk
  refine ⟨(hbeyond ?_).1, ?_, (hwithin ⟨?_, nofun⟩).1⟩
  · intro hfits
    have hmost : (run {}).final.reporter.out.received.length ≤ 20 := hfits.out 20 rfl
    omega
  · simp only [limited, run, hrun]
    decide +kernel
  · intro most hmost
    cases hmost
    show (run {}).final.reporter.out.received.length ≤ 40
    omega

end ExplicitImports
