/-!
# UTF-8

Text as bytes and back.  The decoder reads one byte at a time and turns the
bytes into pieces: a character, or `none` for each maximal run of bytes that
begins a character but cannot be completed.  Strict decoding wants characters
only; lossy decoding shows every other piece as U+FFFD.
-/

namespace ExplicitImports

/-- The content of a file, or a name on a disk: any bytes at all. -/
abbrev Bytes := List UInt8

namespace Utf8

/-- The bytes of a text. -/
def encode (text : List Char) : Bytes :=
  text.flatMap String.utf8EncodeChar

/-- Where the decoder stands between two bytes. -/
inductive State where
  /-- Between two characters. -/
  | start
  /-- Inside a character: `owed` bytes are to come after the next one, the next
  one lies between `low` and `high`, and `value` holds the bits read so far. -/
  | within (owed : Nat) (low high : UInt8) (value : Nat)
  deriving DecidableEq, Repr

/-- The bounds on the second byte leave out overlong forms, surrogates and
values past the last code point; the excluded first bytes begin no character. -/
def first (b : UInt8) : List (Option Char) × State :=
  if b < 0x80 then ([some (Char.ofNat b.toNat)], .start)
  else if b < 0xC2 then ([none], .start)
  else if b < 0xE0 then ([], .within 0 0x80 0xBF (b.toNat - 0xC0))
  else if b < 0xF0 then
    let low := if b = 0xE0 then 0xA0 else 0x80
    let high := if b = 0xED then 0x9F else 0xBF
    ([], .within 1 low high (b.toNat - 0xE0))
  else if b < 0xF5 then
    let low := if b = 0xF0 then 0x90 else 0x80
    let high := if b = 0xF4 then 0x8F else 0xBF
    ([], .within 2 low high (b.toNat - 0xF0))
  else ([none], .start)

/-- The pieces one byte completes, and the state after it.  A byte that cannot
go on with the character at hand ends it as a broken piece and starts anew. -/
def step : State → UInt8 → List (Option Char) × State
  | .start, b => first b
  | .within owed low high value, b =>
      if low ≤ b ∧ b ≤ high then
        let value := value * 64 + (b.toNat - 0x80)
        match owed with
        | 0 => ([some (Char.ofNat value)], .start)
        | owed + 1 => ([], .within owed 0x80 0xBF value)
      else
        let (pieces, next) := first b
        (none :: pieces, next)

/-- The pieces of the bytes that follow a state. -/
def run : State → Bytes → List (Option Char)
  | .start, [] => []
  | .within .., [] => [none]
  | state, b :: rest =>
      let (pieces, next) := step state b
      pieces ++ run next rest

/-- The characters of some bytes, `none` standing for a maximal broken piece. -/
def pieces (bytes : Bytes) : List (Option Char) :=
  run .start bytes

/-- The text that the bytes spell, if they are UTF-8 throughout. -/
def decode? (bytes : Bytes) : Option (List Char) :=
  (pieces bytes).mapM id

/-- The text of the bytes with one U+FFFD for each broken piece. -/
def decodeLossy (bytes : Bytes) : List Char :=
  (pieces bytes).map (·.getD '\uFFFD')

/-- The bytes as a string, if they are UTF-8 throughout. -/
def string? (bytes : Bytes) : Option String :=
  (decode? bytes).map String.ofList

/-- The bytes as a string, with one U+FFFD for each broken piece. -/
def stringLossy (bytes : Bytes) : String :=
  String.ofList (decodeLossy bytes)

/-- The bytes of a string. -/
def ofString (s : String) : Bytes :=
  encode s.toList

@[simp] theorem encode_nil : encode [] = [] := rfl

@[simp] theorem encode_append (s t : List Char) :
    encode (s ++ t) = encode s ++ encode t := by
  simp [encode]

@[simp] theorem ofString_append (s t : String) :
    ofString (s ++ t) = ofString s ++ ofString t := by
  simp [ofString]

@[simp] theorem run_start_cons (b : UInt8) (rest : Bytes) :
    run .start (b :: rest) = (first b).1 ++ run (first b).2 rest := rfl

@[simp] theorem pieces_nil : pieces [] = [] := rfl

/-- Where every piece is a character, lossy and strict decoding agree. -/
theorem decodeLossy_of_decode? {bytes : Bytes} {text : List Char}
    (h : decode? bytes = some text) : decodeLossy bytes = text := by
  unfold decode? at h
  unfold decodeLossy
  generalize pieces bytes = ps at h
  induction ps generalizing text with
  | nil => simp at h; simp [h]
  | cons p ps ih =>
      cases p with
      | none => simp at h
      | some c =>
          cases hps : ps.mapM id with
          | none => simp [List.mapM_cons, hps] at h
          | some tail =>
              simp [List.mapM_cons, hps] at h
              simp [← h, ih hps]

end Utf8

end ExplicitImports
