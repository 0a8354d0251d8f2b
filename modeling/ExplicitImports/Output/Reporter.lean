import ExplicitImports.Disk.Basic
import ExplicitImports.Summary

/-!
# Reporters

A run tells a reporter about each file it has fixed, each failure it has passed
over, and its summary at the end.  A reporter answers from what it was told
before, and may refuse.  While it is told something the disk may be changed by
others; a reporter that keeps the disk as it is has the default `touch`.
-/

namespace ExplicitImports

/-- What a reporter is told. -/
inductive Callback where
  | fixed (file : Fix)
  | failed (failure : Failure)
  | done (summary : Summary)
  deriving DecidableEq, Repr

/-- A reporter whose memory is a `σ`. -/
structure Reporter (σ : Type) where
  /-- Take a callback: refuse it or not, and remember it. -/
  tell : Callback → σ → Except IoError Unit × σ
  /-- What happens to the disk before the callback is taken. -/
  touch : Callback → Disk → Disk := fun _ disk => disk

namespace Reporter

/-- The reporter leaves every disk as it is. -/
def LeavesDisk {σ : Type} (reporter : Reporter σ) : Prop :=
  ∀ callback disk, reporter.touch callback disk = disk

/-- The reporter refuses nothing. -/
def NeverFails {σ : Type} (reporter : Reporter σ) : Prop :=
  ∀ callback state, (reporter.tell callback state).1 = .ok ()

/-- A reporter that keeps everything to itself. -/
def silent : Reporter Unit where
  tell _ _ := (.ok (), ())

/-- A reporter that counts its callbacks from zero and refuses the one with a
given number. -/
def refusing (number : Nat) (cause : IoError) : Reporter Nat where
  tell _ count := (if count = number then .error cause else .ok (), count + 1)

/-- The same reporter, with something done to the disk at each callback. -/
def withTouch {σ : Type} (reporter : Reporter σ) (touch : Callback → Disk → Disk) : Reporter σ :=
  { reporter with touch }

theorem silent_neverFails : silent.NeverFails := fun _ _ => rfl

theorem silent_leavesDisk : silent.LeavesDisk := fun _ _ => rfl

end Reporter

end ExplicitImports
