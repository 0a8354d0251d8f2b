import ExplicitImports.Disk.Error

/-!
# Output streams

A stream takes bytes up to its limit, if it has one.  A write that goes past the
limit leaves as much as fits and fails, and so does every later write that is not
empty.
-/

namespace ExplicitImports

structure Stream where
  received : Bytes := []
  limit : Option Nat := none
  deriving DecidableEq, Repr

namespace Stream

/-- How a write past the limit fails. -/
def limitReached : IoError :=
  .custom "write limit reached"

def write (stream : Stream) (bytes : Bytes) : Except IoError Unit × Stream :=
  match stream.limit with
  | none => (.ok (), { stream with received := stream.received ++ bytes })
  | some limit =>
      let room := limit - stream.received.length
      if bytes.length ≤ room then (.ok (), { stream with received := stream.received ++ bytes })
      else
        (.error limitReached, { stream with received := stream.received ++ bytes.take room })

/-- A write only adds to what a stream has received. -/
theorem received_prefix_write (stream : Stream) (bytes : Bytes) :
    stream.received <+: (stream.write bytes).2.received := by
  unfold write
  split
  · simp
  · dsimp only
    split <;> simp

/-- One write of two parts is a write of the first and, if that did not fail, a
write of the second. -/
theorem write_append (stream : Stream) (a b : Bytes) :
    stream.write (a ++ b) = match stream.write a with
      | (.ok (), after) => after.write b
      | (.error e, after) => (.error e, after) := by
  unfold write
  cases hlimit : stream.limit with
  | none => simp
  | some limit =>
      dsimp only
      by_cases ha : a.length ≤ limit - stream.received.length
      · rw [if_pos ha]
        have hroom : limit - (stream.received ++ a).length =
            limit - stream.received.length - a.length := by
          simp; omega
        by_cases hb : b.length ≤ limit - stream.received.length - a.length
        · have hab : (a ++ b).length ≤ limit - stream.received.length := by
            simp; omega
          simp only [if_pos hab, hroom, if_pos hb, List.append_assoc]
        · have hab : ¬(a ++ b).length ≤ limit - stream.received.length := by
            simp; omega
          simp only [if_neg hab, hroom, if_neg hb, List.append_assoc]
          rw [List.take_append, List.take_of_length_le ha]
      · have hab : ¬(a ++ b).length ≤ limit - stream.received.length := by
          simp; omega
        rw [if_neg ha, if_neg hab]
        simp [List.take_append_of_le_length (by omega : limit - stream.received.length ≤ a.length)]

end Stream

/-- The two streams that reports go to. -/
structure Streams where
  out : Stream := {}
  err : Stream := {}
  deriving DecidableEq, Repr

end ExplicitImports
