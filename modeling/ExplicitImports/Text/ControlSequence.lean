import ExplicitImports.Text.Utf8

/-!
# Control sequences

A terminal acts on control characters, and on sequences that an escape character
opens, instead of showing them.  `stripped` leaves out of a text what would be
acted on, the ends of lines and blanks excepted.  Such a blank inside a sequence
is shown and puts the sequence off: what follows is shown too, up to the next
control character, which takes the sequence up again.
-/

namespace ExplicitImports.ControlSequence

/-- The sequence that a text is inside of. -/
inductive Sequence where
  | none
  /-- An escape character came. -/
  | escape
  /-- Characters came that announce one more. -/
  | intermediate
  /-- Parameters may come, and a letter that ends them. -/
  | parameters
  /-- A command in words, up to a bell. -/
  | command
  /-- A string that is not shown has been announced; its parameters may come. -/
  | header
  /-- Parameters of such a string came. -/
  | headerParameters
  /-- Such a string has yet to begin, but parameters come too late. -/
  | headerIntermediate
  /-- A string that is not shown. -/
  | hidden
  deriving DecidableEq, Repr

/-- Where a reader stands: in a sequence, which may be put off. -/
structure State where
  sequence : Sequence := .none
  putOff : Bool := false
  deriving DecidableEq, Repr

/-- Blanks that are control characters and yet are shown. -/
def isShownBlank (c : Char) : Bool :=
  c = '\t' || c = '\n' || c = '\x0c' || c = '\r'

/-- Characters that a terminal acts on by themselves. -/
def isControl (c : Char) : Bool :=
  c.toNat < 0x20 || c.toNat = 0x7F

/-- Does a code point lie between two others? -/
def isBetween (low high : Nat) (c : Char) : Bool :=
  low ≤ c.toNat && c.toNat ≤ high

/-- The byte that ends a hidden string wherever it comes, inside a character too. -/
def stringEnd : UInt8 := 0x9C

/-- The sequence after one more character of it; control characters belong to
strings only. -/
def Sequence.next (sequence : Sequence) (c : Char) : Sequence :=
  let ascii := c.toNat < 0x80
  match sequence with
  | .none => .none
  | .escape =>
      if isControl c || !ascii then .escape
      else if isBetween 0x20 0x2F c then .intermediate
      else if c = '[' then .parameters
      else if c = ']' then .command
      else if c = 'P' then .header
      else if c = 'X' || c = '^' || c = '_' then .hidden
      else .none
  | .intermediate => if isBetween 0x30 0x7E c then .none else .intermediate
  | .parameters => if isBetween 0x40 0x7E c then .none else .parameters
  | .command => if c = '\x07' then .none else .command
  | .header =>
      if isBetween 0x20 0x2F c then .headerIntermediate
      else if isBetween 0x30 0x3F c then .headerParameters
      else if isBetween 0x40 0x7E c then .hidden
      else .header
  | .headerParameters =>
      if isBetween 0x20 0x2F c then .headerIntermediate
      else if isBetween 0x3C 0x7E c then .hidden
      else .headerParameters
  | .headerIntermediate => if isBetween 0x30 0x7E c then .hidden else .headerIntermediate
  | .hidden => if stringEnd ∈ String.utf8EncodeChar c then .none else .hidden

/-- Is a blank shown inside the sequence? -/
def Sequence.showsBlanks : Sequence → Bool
  | .none | .escape | .intermediate | .parameters => true
  | .command | .header | .headerParameters | .headerIntermediate | .hidden => false

/-- The state after a character, and whether the character is shown.  An escape
character starts anew wherever it comes, and two others break off. -/
def State.step (state : State) (c : Char) : State × Bool :=
  if c = '\x1b' then ({ sequence := .escape }, false)
  else if c = '\x18' || c = '\x1a' then ({}, false)
  else if isShownBlank c && (state.putOff || state.sequence.showsBlanks) then
    ({ state with putOff := true }, true)
  else if state.putOff || state.sequence = .none then
    if isControl c then ({ state with putOff := false }, false)
    else if c.toNat < 0x80 then (state, true)
    else ({}, true)
  else ({ state with sequence := state.sequence.next c }, false)

/-- What is shown of a text. -/
def shown : State → List Char → List Char
  | _, [] => []
  | state, c :: rest =>
      let (next, isShown) := state.step c
      if isShown then c :: shown next rest else shown next rest

/-- A text without what a terminal would act on. -/
def stripped (text : String) : String :=
  String.ofList (shown {} text.toList)

/-- Text without control characters is shown as it is. -/
theorem shown_of_no_control {text : List Char} (h : ∀ c ∈ text, isControl c = false) :
    shown {} text = text := by
  induction text with
  | nil => rfl
  | cons c rest ih =>
      have hc := h c (by simp)
      have hstep : State.step {} c = ({}, true) := by
        have hcontrol : ∀ d, isControl d = true → c ≠ d := by
          rintro d hd rfl
          simp [hd] at hc
        have hblank : isShownBlank c = false := by
          simp [isShownBlank, hcontrol '\t' (by decide), hcontrol '\n' (by decide),
            hcontrol '\x0c' (by decide), hcontrol '\r' (by decide)]
        simp [State.step, hc, hblank, hcontrol '\x1b' (by decide),
          hcontrol '\x18' (by decide), hcontrol '\x1a' (by decide)]
      simp [shown, hstep, ih fun d hd => h d (by simp [hd])]

/-- Nothing is added to a text: what is shown stands in it in the same order. -/
theorem shown_sublist (state : State) (text : List Char) :
    List.Sublist (shown state text) text := by
  induction text generalizing state with
  | nil => exact List.Sublist.refl _
  | cons c rest ih =>
      unfold shown
      dsimp only
      split
      · exact (ih _).cons_cons c
      · exact (ih _).cons c

end ExplicitImports.ControlSequence
