import ExplicitImports.Cli.Arguments

/-!
# The flag to keep going

A command line that is read without the flag `--keep-going` is read with it as well, to the same
arguments but for the flag.  The flag is put first, so it is set while the rest is read; it is in
the way of nothing but its own repetition.

* `Cli.Reading.Carries` — a step of the reading that leaves the flag alone, and comes to the same
  where it is set.
* `Cli.Reading.carries_act`, `Cli.Reading.carries_all` — so do all steps that do not set it.
* `Cli.Arguments.parse_keepGoing` — the command line with the flag before it.
-/

namespace ExplicitImports.Cli

/-- The arguments with the flag to keep going set or not set. -/
def Arguments.keeping (keepGoing : Bool) (arguments : Arguments) : Arguments :=
  { arguments with keepGoing }

/-- What is read so far with that flag set or not set. -/
def Reading.keeping (keepGoing : Bool) (reading : Reading) : Reading :=
  { reading with arguments := reading.arguments.keeping keepGoing }

section Commutes

variable (keepGoing : Bool)

/-- A value is checked and kept without a look at the flag. -/
theorem Arguments.store_keeping (arguments : Arguments) (slot : Slot) (value : Bytes) :
    (arguments.keeping keepGoing).store slot value =
      (arguments.store slot value).map (keeping keepGoing) := by
  obtain ⟨_, _, extension, _, _, color, _, _, _, _, _⟩ := arguments
  cases slot with
  | root => cases value <;> rfl
  | setting setting =>
      unfold store
      cases setting with
      | suffix => cases text value <;> rfl
      | excludePrefix => cases text value <;> rfl
      | ignore => cases text value <;> rfl
      | extension =>
          cases extension with
          | none => cases text value <;> rfl
          | some extension => rfl
      | color =>
          cases color with
          | some color => rfl
          | none =>
              cases value with
              | nil => rfl
              | cons b value =>
                  simp only [keeping]
                  cases ColorUse.ofName? (Utf8.stringLossy (b :: value)) <;> rfl

/-- No other flag is set with a look at this one. -/
theorem Arguments.raise_keeping (arguments : Arguments) {flag : Flag} (hflag : flag ≠ .keepGoing) :
    (arguments.keeping keepGoing).raise flag =
      (arguments.raise flag).map (keeping keepGoing) := by
  unfold raise keeping
  cases flag with
  | keepGoing => exact absurd rfl hflag
  | dryRun => cases arguments.dryRun <;> rfl
  | json => cases arguments.json <;> rfl
  | quiet => cases arguments.quiet <;> rfl
  | verbose => rfl

namespace Reading

/-- What waits is checked without a look at the flag. -/
theorem settle_keeping (reading : Reading) :
    (reading.keeping keepGoing).settle = reading.settle.map (Arguments.keeping keepGoing) := by
  obtain ⟨arguments, waiting⟩ := reading
  cases waiting with
  | none => rfl
  | some waiting =>
      obtain ⟨slot, value⟩ := waiting
      cases value with
      | none => rfl
      | some value =>
          unfold settle keeping
          simp only [arguments.store_keeping]
          cases arguments.store slot value <;> rfl

theorem begin_keeping (reading : Reading) (setting : Setting) (value : Option Bytes) :
    (reading.keeping keepGoing).begin setting value =
      (reading.begin setting value).map (keeping keepGoing) := by
  unfold begin
  rw [settle_keeping]
  cases reading.settle with
  | error stop => rfl
  | ok arguments =>
      cases value with
      | none => rfl
      | some value =>
          simp only [Except.map, bind, Except.bind, arguments.store_keeping]
          cases arguments.store (.setting setting) value <;> rfl

theorem takeRoot_keeping (reading : Reading) (value : Bytes) :
    (reading.keeping keepGoing).takeRoot value =
      (reading.takeRoot value).map (keeping keepGoing) := by
  have hroot : (reading.keeping keepGoing).arguments.root = reading.arguments.root := rfl
  have hwaiting : (reading.keeping keepGoing).waiting = reading.waiting := rfl
  unfold takeRoot
  rw [settle_keeping, hroot, hwaiting]
  dsimp only
  generalize (reading.arguments.root.isSome || _) = taken
  cases taken with
  | true => rfl
  | false => cases reading.settle <;> rfl

theorem takeValue_keeping (reading : Reading) (value : Bytes) :
    (reading.keeping keepGoing).takeValue value =
      (reading.takeValue value).map (keeping keepGoing) := by
  obtain ⟨arguments, waiting⟩ := reading
  match waiting with
  | some (slot, none) => rfl
  | some (slot, some waiting) => exact takeRoot_keeping keepGoing _ value
  | none => exact takeRoot_keeping keepGoing _ value

theorem act_keeping (reading : Reading) {flag : Flag} (hflag : flag ≠ .keepGoing) :
    (reading.keeping keepGoing).act (.ok flag) =
      (reading.act (.ok flag)).map (keeping keepGoing) := by
  unfold act
  rw [settle_keeping]
  cases reading.settle with
  | error stop => rfl
  | ok arguments =>
      simp only [Except.map, bind, Except.bind, arguments.raise_keeping keepGoing hflag]
      cases arguments.raise flag <;> rfl

end Reading

end Commutes

namespace Reading

/-- A step after which the flag is not set has found it so, and comes to the same where it is
set. -/
def Carries (step : Reading → Except Stop Reading) : Prop :=
  ∀ reading next, step reading = .ok next → next.arguments.keepGoing = false →
    reading.arguments.keepGoing = false ∧ step (reading.keeping true) = .ok (next.keeping true)

theorem keeping_self (reading : Reading) :
    reading.keeping reading.arguments.keepGoing = reading := rfl

section Carries

variable {step next : Reading → Except Stop Reading}

theorem carries_ok : Carries .ok := by
  intro reading next h hnone
  cases h
  exact ⟨hnone, rfl⟩

theorem carries_error (stop : Stop) : Carries fun _ => .error stop :=
  fun _ _ h => nomatch h

theorem carries_of_keeping (h : ∀ keepGoing reading,
    step (reading.keeping keepGoing) = (step reading).map (keeping keepGoing)) : Carries step := by
  intro reading next hnext hnone
  have hkept := h reading.arguments.keepGoing reading
  rw [keeping_self, hnext] at hkept
  refine ⟨?_, by rw [h, hnext]; rfl⟩
  rw [Except.ok.inj hkept] at hnone
  exact hnone

theorem Carries.bind (h : Carries step) (hnext : Carries next) :
    Carries fun reading => step reading >>= next := by
  intro reading last hlast hnone
  dsimp only at hlast ⊢
  cases hstep : step reading with
  | error stop =>
      rw [hstep] at hlast
      cases hlast
  | ok between =>
      rw [hstep] at hlast
      obtain ⟨hbetween, hsecond⟩ := hnext between last hlast hnone
      obtain ⟨hfirst, hset⟩ := h reading between hstep hbetween
      refine ⟨hfirst, ?_⟩
      rw [hset]
      exact hsecond

end Carries

/-- Where it is not refused, the flag to keep going is set. -/
theorem keepGoing_of_act {reading next : Reading} (h : reading.act (.ok .keepGoing) = .ok next) :
    next.arguments.keepGoing = true := by
  dsimp only [act] at h
  cases hsettle : reading.settle with
  | error stop =>
      rw [hsettle] at h
      cases h
  | ok arguments =>
      rw [hsettle] at h
      have hraised : (do
          let raised ← (arguments.raise .keepGoing).mapError Stop.error
          return { arguments := raised }) = Except.ok next := h
      cases hgiven : arguments.keepGoing with
      | true =>
          have hraise : arguments.raise .keepGoing =
              .error (.repeated (Opt.flag .keepGoing).display) := by
            simp [Arguments.raise, hgiven]
          rw [hraise] at hraised
          cases hraised
      | false =>
          have hraise : arguments.raise .keepGoing =
              .ok { arguments with keepGoing := true } := by
            simp [Arguments.raise, hgiven]
          rw [hraise] at hraised
          cases hraised
          rfl

/-- A flag is set alike; where it is the one to keep going it is set afterwards. -/
theorem carries_act (result : Except Stop Flag) : Carries fun reading => reading.act result := by
  cases result with
  | error stop =>
      intro reading next h
      dsimp only [act] at h
      cases hsettle : reading.settle <;> rw [hsettle] at h <;> cases h
  | ok flag =>
      by_cases hflag : flag = .keepGoing
      · subst hflag
        intro reading next h hnone
        rw [keepGoing_of_act h] at hnone
        cases hnone
      · exact carries_of_keeping fun keepGoing reading => act_keeping keepGoing reading hflag

theorem carries_begin (setting : Setting) (value : Option Bytes) :
    Carries fun reading => reading.begin setting value :=
  carries_of_keeping fun keepGoing reading => begin_keeping keepGoing reading setting value

theorem carries_takeRoot (value : Bytes) : Carries fun reading => reading.takeRoot value :=
  carries_of_keeping fun keepGoing reading => takeRoot_keeping keepGoing reading value

theorem carries_takeValue (value : Bytes) : Carries fun reading => reading.takeValue value :=
  carries_of_keeping fun keepGoing reading => takeValue_keeping keepGoing reading value

theorem carries_long (text : Bytes) : Carries fun reading => reading.long text := by
  unfold long
  dsimp only
  generalize text.dropWhile (· ≠ equals) = attached
  match Opt.ofLong? _, attached with
  | none, _ => exact carries_error _
  | some (.setting setting), _ => exact carries_begin setting _
  | some (.flag flag), _ :: value => exact carries_error _
  | some .help, _ :: value => exact carries_error _
  | some .version, _ :: value => exact carries_error _
  | some (.flag flag), [] => exact carries_act _
  | some .help, [] => exact carries_act _
  | some .version, [] => exact carries_act _

theorem carries_short (pieces : List (Option Char)) (text : Bytes) :
    Carries fun reading => reading.short pieces text := by
  induction pieces generalizing text with
  | nil => exact carries_ok
  | cons piece more ih =>
      cases piece with
      | none => exact carries_error _
      | some c =>
          unfold short
          dsimp only
          match Opt.ofShort? c with
          | none => exact carries_error _
          | some (.flag flag) => exact (carries_act (.ok flag)).bind (ih _)
          | some .help => exact carries_act _
          | some .version => exact carries_act _
          | some (.setting setting) => exact carries_begin setting _

theorem carries_argument (bytes : Bytes) : Carries fun reading => reading.argument bytes := by
  match bytes with
  | [] => exact carries_takeValue []
  | [b] => exact carries_takeValue [b]
  | b :: c :: text =>
      unfold argument
      by_cases hdash : b = dash
      · by_cases hlong : c = dash
        · simpa [hdash, hlong] using carries_long text
        · simpa [hdash, hlong] using carries_short _ _
      · simpa [hdash] using carries_takeValue _

/-- The rest of a command line is read alike. -/
theorem carries_all (line : List Bytes) : Carries fun reading => reading.all line := by
  induction line with
  | nil => exact carries_ok
  | cons bytes rest ih =>
      unfold all
      split
      · -- After two dashes there is nothing but the root.
        clear ih
        induction rest with
        | nil => exact carries_ok
        | cons value rest ih => exact (carries_takeRoot value).bind ih
      · exact (carries_argument bytes).bind ih

/-- The flag before a command line is set first. -/
theorem all_keepGoing (line : List Bytes) :
    all {} (Utf8.ofString "--keep-going" :: line) = (keeping true {}).all line := by
  have hflag : ({} : Reading).argument (Utf8.ofString "--keep-going") = .ok (keeping true {}) := by
    rfl
  have hdashes : Utf8.ofString "--keep-going" ≠ [dash, dash] := by decide
  rw [all, if_neg hdashes, hflag]
  rfl

end Reading

/-- A command line that is read without the flag is read with the flag before it, to the same
arguments but for the flag. -/
theorem Arguments.parse_keepGoing {line : List Bytes} {arguments : Arguments}
    (h : parse line = .ok arguments) (hnone : arguments.keepGoing = false) :
    parse (Utf8.ofString "--keep-going" :: line) = .ok { arguments with keepGoing := true } := by
  unfold parse at h
  cases hall : Reading.all {} line with
  | error stop =>
      rw [hall] at h
      cases h
  | ok reading =>
      rw [hall] at h
      have hsettle : reading.settle = .ok arguments := h
      have hkept := Reading.settle_keeping reading.arguments.keepGoing reading
      rw [Reading.keeping_self, hsettle] at hkept
      have hunset : reading.arguments.keepGoing = false := by
        rw [Except.ok.inj hkept] at hnone
        exact hnone
      obtain ⟨-, hset⟩ := Reading.carries_all line {} reading hall hunset
      dsimp only at hset
      unfold parse
      rw [Reading.all_keepGoing, hset]
      show (reading.keeping true).settle = _
      rw [Reading.settle_keeping, hsettle]
      rfl

end ExplicitImports.Cli
