import ExplicitImports.Text.CharacterClass

/-!
# Patterns for field values

A directive may ask for the value of a field by a number or by a regular
expression.  Which values fit is of no account here, since a directive with a
value is about spans only; but one that is neither a number nor a regular
expression spoils a filter.  `isWellFormed` tells them apart.

A regular expression is read one thing after the other; of what was read only the
height is kept, which counts the things that stand one inside the other.  A
pattern stands between braces and so holds none that closes: whatever needs one
cannot be completed.  Nor can a pattern ask for the bounds of words, unless words
are made of ASCII characters.
-/

namespace ExplicitImports.Log.Pattern

open CharacterClass

/-- What the flags of a group turn on. -/
structure Flags where
  /-- Blanks and comments do not count. -/
  verbose : Bool := false
  /-- Characters are matched, not bytes. -/
  unicode : Bool := true
  deriving DecidableEq, Repr

/-- Things one after the other: how many, and the height of the highest. -/
structure Row where
  count : Nat := 0
  highest : Nat := 0
  deriving DecidableEq, Repr

namespace Row

/-- The height of a row: two things and more stand inside something that joins
them. -/
def height (row : Row) : Nat :=
  if row.count < 2 then row.highest else row.highest + 1

def add (row : Row) (height : Nat) : Row :=
  { count := row.count + 1, highest := max row.highest height }

end Row

/-- The height of a row that something of a known height stands beside. -/
def joined (beside : Option Nat) (row : Row) : Nat :=
  match beside with
  | none => row.height
  | some height => max height row.height + 1

/-- A group, or the whole: the row being read and the alternatives before it. -/
structure Group where
  row : Row := {}
  /-- The height of the highest alternative before. -/
  before : Option Nat := none

/-- A class between brackets: the row being read and the operand before it. -/
structure Class where
  row : Row := {}
  /-- The height of the left operand. -/
  operand : Option Nat := none

/-- Where a reader of a pattern stands. -/
structure State where
  flags : Flags := {}
  group : Group := {}
  /-- The height of what was read last, if that can be repeated. -/
  last : Option Nat := none
  /-- The groups around the one being read, with the flags to return to. -/
  outer : List (Group × Flags) := []
  names : List (List Char) := []
  /-- The classes that are open, the innermost first. -/
  classes : List Class := []

/-- What a character or an escape stands for. -/
inductive Item where
  | literal (c : Nat)
  /-- A class of characters. -/
  | set
  /-- A place between characters. -/
  | place

namespace State

/-- The state after something of a known height. -/
def after (state : State) (height : Nat) : State :=
  { state with
    group := { state.group with row := state.group.row.add height }
    last := some height }

/-- The state inside a group that has just been opened. -/
def enter (state : State) (flags : Flags) : State :=
  { state with
    flags, group := {}, last := none
    outer := (state.group, state.flags) :: state.outer }

/-- The state after a group. -/
def leave? (state : State) : Option State :=
  match state.outer with
  | [] => none
  | (group, flags) :: outer =>
      let height := joined state.group.before state.group.row + 1
      some ({ state with flags, group, outer }.after height)

/-- The state after the end of an alternative. -/
def alternative (state : State) : State :=
  let height := max (state.group.before.getD 0) state.group.row.height
  { state with group := { before := some height }, last := none }

/-- The state after a repetition of what was read last. -/
def repeat? (state : State) : Option State := do
  let height ← state.last
  let row := state.group.row
  return { state with
    group := { state.group with row := { row with highest := max row.highest (height + 1) } }
    last := some (height + 1) }

/-- The state after new flags, which count as a thing but cannot be repeated. -/
def withFlags (state : State) (flags : Flags) : State :=
  { state.after 0 with flags, last := none }

/-- The state after something inside a class. -/
def member (state : State) (height : Nat) : State :=
  match state.classes with
  | [] => state
  | current :: outer =>
      { state with classes := { current with row := current.row.add height } :: outer }

/-- The state after an operator between two classes. -/
def operator (state : State) : State :=
  match state.classes with
  | [] => state
  | current :: outer =>
      { state with classes := { operand := some (joined current.operand current.row) } :: outer }

/-- The state after a class. -/
def leaveClass (state : State) : State :=
  match state.classes with
  | [] => state
  | current :: outer =>
      let height := joined current.operand current.row + 1
      let state := { state with classes := outer }
      if outer.isEmpty then state.after height else state.member height

end State

/-- How high a pattern may be. -/
def heightLimit : Nat := 250

/-- Pass over blanks and comments. -/
def skipBlanks : List Char → List Char
  | [] => []
  | c :: rest =>
      if c = '#' then comment rest
      else if isBlank c then skipBlanks rest
      else c :: rest
where
  comment : List Char → List Char
    | [] => []
    | c :: rest => if c = '\n' then skipBlanks rest else comment rest

/-- Pass over what does not count. -/
def Flags.skip (flags : Flags) (text : List Char) : List Char :=
  if flags.verbose then skipBlanks text else text

/-- The character that decides what a dash in a class is.  Where blanks do not
count, one number sign between blanks does not count either; here it opens no
comment. -/
def Flags.ahead? (flags : Flags) (text : List Char) : Option Char :=
  if flags.verbose then
    match text.dropWhile isBlank with
    | '#' :: rest => (rest.dropWhile isBlank).head?
    | text => text.head?
  else text.head?

/-- Is a number the code point of a character? -/
def isScalar (n : Nat) : Bool :=
  n < 0xD800 || (0xDFFF < n && n < 0x110000)

/-- The value of a hexadecimal digit. -/
def hexValue? (c : Char) : Option Nat :=
  if c.isDigit then some (c.toNat - '0'.toNat)
  else if 'a' ≤ c ∧ c ≤ 'f' then some (c.toNat - 'a'.toNat + 10)
  else if 'A' ≤ c ∧ c ≤ 'F' then some (c.toNat - 'A'.toNat + 10)
  else none

/-- The number that so many hexadecimal digits write after a number before them. -/
def hex? (flags : Flags) : (digits : Nat) → (value : Nat) → List Char → Option (Nat × List Char)
  | 0, value, text => some (value, text)
  | digits + 1, value, text =>
      match flags.skip text with
      | [] => none
      | c :: rest => do hex? flags digits (16 * value + (← hexValue? c)) rest

/-- A character by the digits of its code point. -/
def scalar? (flags : Flags) (digits : Nat) (text : List Char) : Option (Item × List Char) := do
  let (n, rest) ← hex? flags digits 0 text
  if isScalar n then return (.literal n, rest) else none

/-- What follows a backslash. -/
def escape? (flags : Flags) : List Char → Option (Item × List Char)
  | [] => none
  | c :: rest =>
      if c = 'x' then do
        let (n, rest) ← hex? flags 2 0 rest
        if n < 0x80 ∨ flags.unicode then return (.literal n, rest) else none
      else if c = 'u' then scalar? flags 4 rest
      else if c = 'U' then scalar? flags 8 rest
      else if c = 'p' ∨ c = 'P' then
        match flags.skip rest with
        | category :: rest =>
            if category.toLower ∈ ['c', 'l', 'm', 'n', 'p', 's', 'z'] ∧ flags.unicode then
              some (.set, rest)
            else none
        | [] => none
      else if c ∈ ['d', 's', 'w'] then some (.set, rest)
      else if c ∈ ['D', 'S', 'W'] then if flags.unicode then some (.set, rest) else none
      else if c ∈ ['a', 'f', 'n', 'r', 't', 'v'] then some (.literal (control c), rest)
      else if c ∈ ['A', 'z'] then some (.place, rest)
      else if c ∈ ['b', 'B', '<', '>'] then if flags.unicode then none else some (.place, rest)
      else if c.isAlphanum ∨ 0x80 ≤ c.toNat then none
      else some (.literal c.toNat, rest)
where
  /-- The code point of a control character by its letter. -/
  control (c : Char) : Nat :=
    if c = 'a' then 0x07 else if c = 'f' then 0x0C else if c = 'n' then 0x0A
    else if c = 'r' then 0x0D else if c = 't' then 0x09 else 0x0B

/-- The flags of a group: letters to turn on, and after a dash those to turn off,
none of them twice. -/
def flags? (old : Flags) (text : List Char) : Option Flags :=
  let on := text.takeWhile (· ≠ '-')
  let off := text.dropWhile (· ≠ '-') |>.drop 1
  let known := ['i', 'm', 's', 'U', 'u', 'R', 'x']
  let letters := on ++ off
  if letters.eraseDups = letters ∧ letters.all (· ∈ known) ∧ (off ≠ [] ∨ on = text) then
    some {
      verbose := ('x' ∈ on) || (old.verbose && 'x' ∉ off)
      unicode := ('u' ∈ on) || (old.unicode && 'u' ∉ off) }
  else none

/-- May a group have this name? -/
def isName : List Char → Bool
  | [] => false
  | c :: rest =>
      (c = '_' || isLetter c) &&
        rest.all fun c => c ∈ ['_', '.', '[', ']'] || isLetterOrNumber c

/-- What follows the parenthesis that opens a group. -/
def openGroup? (state : State) (text : List Char) : Option (State × List Char) :=
  match state.flags.skip text with
  | '?' :: 'P' :: '<' :: rest | '?' :: '<' :: rest =>
      let name := rest.takeWhile (· ≠ '>')
      match rest.drop name.length with
      | [] => none
      | _ :: rest =>
          if isName name ∧ name ∉ state.names then
            some ({ state.enter state.flags with names := name :: state.names }, rest)
          else none
  | '?' :: rest => do
      let letters := rest.takeWhile fun c => c ≠ ':' ∧ c ≠ ')'
      let flags ← flags? state.flags letters
      match rest.drop letters.length with
      | [] => none
      | last :: rest =>
          if last = ':' then some (state.enter flags, rest)
          else if letters = [] then none
          else some (state.withFlags flags, rest)
  | text => some (state.enter state.flags, text)

/-- Dashes at the start of a class, which stand for themselves, with what does not
count between them. -/
def dashes (state : State) (inComment : Bool) : List Char → State × List Char
  | [] => (state, [])
  | c :: rest =>
      if inComment then dashes state (c ≠ '\n') rest
      else if c = '-' then dashes (state.member 0) false rest
      else if state.flags.verbose && c = '#' then dashes state true rest
      else if state.flags.verbose && isBlank c then dashes state false rest
      else (state, c :: rest)

/-- What follows the bracket that opens a class; a bracket that would close it at
once stands for itself. -/
def openClass? (state : State) (text : List Char) : Option (State × List Char) :=
  let state := { state with classes := {} :: state.classes }
  match state.flags.skip text with
  | '^' :: rest => if state.flags.unicode then members state (state.flags.skip rest) else none
  | text => members state text
where
  members (state : State) (text : List Char) : Option (State × List Char) :=
    match text with
    | ']' :: rest => some (state.member 0, rest)
    | text => some (dashes state false text)

/-- Pass over a named class inside a class. -/
def named? (flags : Flags) (text : List Char) : Option (Option (List Char)) :=
  match text with
  | ':' :: rest =>
      let negated := rest.head? = some '^'
      let rest := if negated then rest.drop 1 else rest
      let name := rest.takeWhile (· ≠ ':')
      if name ∈ classes.map String.toList ∧ (rest.drop name.length).take 2 = [':', ']'] then
        some (if negated && !flags.unicode then none else some (rest.drop (name.length + 2)))
      else none
  | _ => none
where
  classes : List String :=
    ["alnum", "alpha", "ascii", "blank", "cntrl", "digit", "graph", "lower", "print",
      "punct", "space", "upper", "word", "xdigit"]

/-- A character or an escape inside a class. -/
def member? (flags : Flags) (text : List Char) : Option (Item × List Char) := do
  let (item, rest) ← match text with
    | [] => none
    | '\\' :: rest => escape? flags rest
    | c :: rest => some (.literal c.toNat, rest)
  match item with
  | .literal n => if n < 0x80 ∨ flags.unicode then return (item, rest) else none
  | _ => return (item, rest)

/-- One step inside a class: a bracket, an operator between classes, a character
or a range of them. -/
def classStep? (state : State) (text : List Char) : Option (State × List Char) :=
  match text with
  | [] => none
  | '[' :: rest =>
      match named? state.flags rest with
      | some rest => rest.map (state.member 0, ·)
      | none => openClass? state rest
  | ']' :: rest => some (state.leaveClass, rest)
  | '&' :: '&' :: rest | '-' :: '-' :: rest | '~' :: '~' :: rest => some (state.operator, rest)
  | text => do
      let (first, rest) ← member? state.flags text
      match state.flags.skip rest with
      | '-' :: rest =>
          if state.flags.ahead? rest ∈ [some ']', some '-'] then single first ('-' :: rest)
          else match first, ← member? state.flags (state.flags.skip rest) with
            | .literal low, (.literal high, rest) =>
                if low ≤ high then some (state.member 0, rest) else none
            | _, _ => none
      | rest => single first rest
where
  single (item : Item) (rest : List Char) : Option (State × List Char) :=
    match item with
    | .place => none
    | _ => some (state.member 0, rest)

/-- One step outside of classes. -/
def step? (state : State) (text : List Char) : Option (State × List Char) :=
  match text with
  | [] => none
  | '(' :: rest => openGroup? state rest
  | ')' :: rest => state.leave?.map (·, rest)
  | '|' :: rest => some (state.alternative, rest)
  | '[' :: rest => openClass? state rest
  | '?' :: rest | '*' :: rest | '+' :: rest =>
      state.repeat?.map (·, if rest.head? = some '?' then rest.drop 1 else rest)
  | '\x7b' :: _ => none
  | '\\' :: rest => (escape? state.flags rest).map fun (_, rest) => (state.after 0, rest)
  | '.' :: rest => if state.flags.unicode then some (state.after 0, rest) else none
  | _ :: rest => some (state.after 0, rest)

/-- Is everything closed at the end, and nothing too high? -/
def State.isComplete (state : State) : Bool :=
  state.outer.isEmpty && state.classes.isEmpty &&
    joined state.group.before state.group.row ≤ heightLimit

/-- Read a pattern to its end in at most so many steps. -/
def reads : (fuel : Nat) → State → List Char → Bool
  | 0, _, _ => false
  | fuel + 1, state, text =>
      match state.flags.skip text with
      | [] => state.isComplete
      | text =>
          match if state.classes.isEmpty then step? state text else classStep? state text with
          | some (state, rest) => reads fuel state rest
          | none => false

/-- Is the text a regular expression?  Every step takes a character away. -/
def isExpression (text : List Char) : Bool :=
  reads (text.length + 1) {} text

/-- Is the text a number with a plus sign?  Numbers without one are regular
expressions too. -/
def isPositive : List Char → Bool
  | '+' :: text =>
      let whole := text.takeWhile Char.isDigit
      let rest := text.drop whole.length
      let fraction := match rest with
        | '.' :: rest => rest.takeWhile Char.isDigit
        | _ => []
      let rest := match rest with
        | '.' :: rest => rest.drop fraction.length
        | rest => rest
      text.map Char.toLower ∈ ["inf", "infinity", "nan"].map String.toList ||
        ((whole ≠ [] || fraction ≠ []) && isExponent rest)
  | _ => false
where
  isExponent : List Char → Bool
    | [] => true
    | e :: rest =>
        let digits := match rest with
          | '+' :: digits | '-' :: digits => digits
          | digits => digits
        (e = 'e' || e = 'E') && digits ≠ [] && digits.all Char.isDigit

/-- May a directive ask for this value? -/
def isWellFormed (text : List Char) : Bool :=
  isPositive text || isExpression text

end ExplicitImports.Log.Pattern
