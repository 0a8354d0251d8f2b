import Mathlib.Data.Nat.Basic
import Mathlib.Tactic.IntervalCases
import ExplicitImports.Text.Json

/-!
# Reading JSON

The grammar of JSON as a machine that takes one character after another and keeps the
containers that are part way through on a stack.  Blanks may stand wherever the grammar has
them, and strings have all the escapes, pairs of codes included.  `Json` has no value for
`null` and for numbers with a sign, a fraction or an exponent, so texts with these are refused
like texts that are no JSON at all.

* `Reader`, `step`, `read?` — where the machine stands, how it goes on, and what it has read
  at the end of a text.
* `run_escape`, `run_quote`, `run_toDigits` — strings and numbers are read as they are written.
* `run_render` — so is every value, at any depth and inside of any containers: one lemma for
  values, one for the items that are left of an array and one for the members of an object.
* `read?_pretty` — a document is read as the value that it was written for.
-/

namespace ExplicitImports.Json

/-- A container that is part way through: its items so far, or its members so far and the key
of the value that is being read. -/
inductive Frame where
  | array (items : List Json)
  | object (members : List (String × Json)) (key : String)

/-- What a string is read for: as a value, or as the key after these members. -/
inductive Purpose where
  | value
  | key (members : List (String × Json))

/-- Where the machine stands between two quotes. -/
inductive Quoted where
  | plain
  /-- After a backslash. -/
  | escape
  /-- In front of a digit of a code with `left` more after it; the digits before it have this
  value.  If the code is to be the second half of a pair, the first half goes with it. -/
  | code (left value : Nat) (high : Option Nat)
  /-- After the first half of a pair. -/
  | half (high : Nat)
  /-- After the backslash that follows the first half of a pair. -/
  | halfEscape (high : Nat)

/-- What the machine is about to read. -/
inductive Reading where
  | value
  /-- The first item of an array, or its end. -/
  | firstItem
  /-- The first key of an object, or its end. -/
  | firstKey
  | nextKey (members : List (String × Json))
  | colon (members : List (String × Json)) (key : String)
  /-- The rest of a word, which means this truth value. -/
  | word (next : Char) (rest : List Char) (meaning : Bool)
  /-- More digits of a number that does not start with a zero. -/
  | digits (value : Nat)
  | quoted (purpose : Purpose) (text : List Char) (place : Quoted)
  /-- What comes after a value: the next one in its container, or the end. -/
  | after (value : Json)

structure Reader where
  reading : Reading
  around : List Frame

def isBlank (c : Char) : Bool :=
  c = ' ' || c = '\t' || c = '\n' || c = '\r'

def digit (c : Char) : Nat :=
  c.toNat - '0'.toNat

/-- The value of a hexadecimal digit. -/
def hexDigit? (c : Char) : Option Nat :=
  "0123456789abcdef".toList.idxOf? c.toLower

/-- The character that an escape of one letter stands for. -/
def unescape? (c : Char) : Option Char :=
  if c = '"' ∨ c = '\\' ∨ c = '/' then some c
  else if c = 'b' then some '\x08'
  else if c = 'f' then some '\x0c'
  else if c = 'n' then some '\n'
  else if c = 'r' then some '\r'
  else if c = 't' then some '\t'
  else none

def isHighHalf (code : Nat) : Bool :=
  0xD800 ≤ code && code < 0xDC00

def isLowHalf (code : Nat) : Bool :=
  0xDC00 ≤ code && code < 0xE000

/-- After a string. -/
def Purpose.closed (text : List Char) : Purpose → Reading
  | value => .after (.string (String.ofList text))
  | key members => .colon members (String.ofList text)

/-- After a code of four digits. -/
def coded? (purpose : Purpose) (text : List Char) (code : Nat) : Option Nat → Option Reading
  | none =>
      if isHighHalf code then some (.quoted purpose text (.half code))
      else if isLowHalf code then none
      else some (.quoted purpose (text ++ [Char.ofNat code]) .plain)
  | some high =>
      if isLowHalf code then
        let c := Char.ofNat (0x10000 + 0x400 * (high - 0xD800) + (code - 0xDC00))
        some (.quoted purpose (text ++ [c]) .plain)
      else none

/-- The next character between two quotes. -/
def stepQuoted (purpose : Purpose) (text : List Char) : Quoted → Char → Option Reading
  | .plain, c =>
      if c = '"' then some (purpose.closed text)
      else if c = '\\' then some (.quoted purpose text .escape)
      else if c.toNat < 0x20 then none
      else some (.quoted purpose (text ++ [c]) .plain)
  | .escape, c =>
      if c = 'u' then some (.quoted purpose text (.code 3 0 none))
      else do return .quoted purpose (text ++ [← unescape? c]) .plain
  | .code left value high, c => do
      let value := 16 * value + (← hexDigit? c)
      match left with
      | 0 => coded? purpose text value high
      | left + 1 => return .quoted purpose text (.code left value high)
  | .half high, c => if c = '\\' then some (.quoted purpose text (.halfEscape high)) else none
  | .halfEscape high, c =>
      if c = 'u' then some (.quoted purpose text (.code 3 0 (some high))) else none

/-- The first character of a value. -/
def start? (around : List Frame) (c : Char) : Option Reader :=
  if c = '"' then some ⟨.quoted .value [] .plain, around⟩
  else if c = '[' then some ⟨.firstItem, around⟩
  else if c = '{' then some ⟨.firstKey, around⟩
  else if c = 't' then some ⟨.word 'r' ['u', 'e'] true, around⟩
  else if c = 'f' then some ⟨.word 'a' ['l', 's', 'e'] false, around⟩
  else if c = '0' then some ⟨.after (.number 0), around⟩
  else if c.isDigit then some ⟨.digits (digit c), around⟩
  else none

/-- A character after a value. -/
def resume? (value : Json) (around : List Frame) (c : Char) : Option Reader :=
  if isBlank c then some ⟨.after value, around⟩
  else match around with
    | [] => none
    | .array items :: around =>
        let items := items ++ [value]
        if c = ',' then some ⟨.value, .array items :: around⟩
        else if c = ']' then some ⟨.after (.array items), around⟩
        else none
    | .object members key :: around =>
        let members := members ++ [(key, value)]
        if c = ',' then some ⟨.nextKey members, around⟩
        else if c = '}' then some ⟨.after (.object members), around⟩
        else none

/-- How the machine takes a character, if the grammar allows for it. -/
def step : Reader → Char → Option Reader
  | ⟨.value, around⟩, c => if isBlank c then some ⟨.value, around⟩ else start? around c
  | ⟨.firstItem, around⟩, c =>
      if isBlank c then some ⟨.firstItem, around⟩
      else if c = ']' then some ⟨.after (.array []), around⟩
      else start? (.array [] :: around) c
  | ⟨.firstKey, around⟩, c =>
      if isBlank c then some ⟨.firstKey, around⟩
      else if c = '}' then some ⟨.after (.object []), around⟩
      else if c = '"' then some ⟨.quoted (.key []) [] .plain, around⟩
      else none
  | ⟨.nextKey members, around⟩, c =>
      if isBlank c then some ⟨.nextKey members, around⟩
      else if c = '"' then some ⟨.quoted (.key members) [] .plain, around⟩
      else none
  | ⟨.colon members key, around⟩, c =>
      if isBlank c then some ⟨.colon members key, around⟩
      else if c = ':' then some ⟨.value, .object members key :: around⟩
      else none
  | ⟨.word next rest meaning, around⟩, c =>
      if c = next then
        match rest with
        | [] => some ⟨.after (.bool meaning), around⟩
        | next :: rest => some ⟨.word next rest meaning, around⟩
      else none
  | ⟨.digits value, around⟩, c =>
      if c.isDigit then some ⟨.digits (10 * value + digit c), around⟩
      else resume? (.number value) around c
  | ⟨.quoted purpose text place, around⟩, c => do
      return ⟨← stepQuoted purpose text place c, around⟩
  | ⟨.after value, around⟩, c => resume? value around c

/-- How the machine takes a text. -/
def run (reader : Reader) (text : List Char) : Option Reader :=
  text.foldlM step reader

/-- What was read, where a text may end. -/
def Reader.result? : Reader → Option Json
  | ⟨.after value, []⟩ => some value
  | ⟨.digits value, []⟩ => some (.number value)
  | _ => none

/-- The value that a text spells by the grammar of JSON. -/
def read? (text : List Char) : Option Json := do
  (← run ⟨.value, []⟩ text).result?

section Run

variable (reader : Reader) (c : Char) (a b rest : List Char)

@[simp] theorem run_nil : run reader [] = some reader := rfl

theorem run_cons : run reader (c :: rest) = (step reader c).bind fun next => run next rest := rfl

theorem run_append : run reader (a ++ b) = (run reader a).bind fun next => run next b := by
  unfold run
  rw [List.foldlM_append]
  rfl

end Run

theorem run_cons_of_step {reader next : Reader} {c : Char} (h : step reader c = some next)
    (rest : List Char) : run reader (c :: rest) = run next rest := by
  rw [run_cons, h]
  rfl

theorem run_append_of_run {reader next : Reader} {a : List Char} (h : run reader a = some next)
    (b : List Char) : run reader (a ++ b) = run next b := by
  rw [run_append, h]
  rfl

/-- The start of a line is blank. -/
theorem run_newline {reader : Reader}
    (h : ∀ c, isBlank c = true → step reader c = some reader) (depth : Nat) (rest : List Char) :
    run reader (newline depth ++ rest) = run reader rest := by
  have hspaces (n : Nat) : run reader (List.replicate n ' ') = some reader := by
    induction n with
    | zero => rfl
    | succ n ih => rw [List.replicate_succ, run_cons_of_step (h ' ' rfl), ih]
  unfold newline
  rw [List.cons_append, run_cons_of_step (h '\n' rfl), run_append_of_run (hspaces _)]

section Quoted

variable (purpose : Purpose) (text : List Char) (around : List Frame)

theorem hexDigit?_digitChar {n : Nat} (h : n < 16) : hexDigit? n.digitChar = some n := by
  interval_cases n <;> decide

/-- A code of four digits that is no half of a pair. -/
theorem run_code {code : Nat} (h : code < 0x20) :
    run ⟨.quoted purpose text .plain, around⟩
        ['\\', 'u', '0', '0', (code / 16).digitChar, (code % 16).digitChar] =
      some ⟨.quoted purpose (text ++ [Char.ofNat code]) .plain, around⟩ := by
  have hhigh := hexDigit?_digitChar (n := code / 16) (by omega)
  have hlow := hexDigit?_digitChar (n := code % 16) (by omega)
  have hzero : hexDigit? '0' = some 0 := by decide
  have hvalue : 16 * (code / 16) + code % 16 = code := by omega
  have hnone : isHighHalf code = false ∧ isLowHalf code = false := by
    simp only [isHighHalf, isLowHalf, Bool.and_eq_false_imp, decide_eq_true_eq,
      decide_eq_false_iff_not]
    omega
  simp [run, step, stepQuoted, hzero, hhigh, hlow, hvalue, coded?, hnone]

/-- A character is read from its escape. -/
theorem run_escape (c : Char) :
    run ⟨.quoted purpose text .plain, around⟩ (escape c) =
      some ⟨.quoted purpose (text ++ [c]) .plain, around⟩ := by
  by_cases hshort : c ∈ ['"', '\\', '\x08', '\x0c', '\n', '\r', '\t']
  · simp only [List.mem_cons, List.not_mem_nil, or_false] at hshort
    rcases hshort with rfl | rfl | rfl | rfl | rfl | rfl | rfl <;> rfl
  · simp only [List.mem_cons, List.not_mem_nil, or_false, not_or] at hshort
    unfold escape
    simp only [hshort, if_false]
    split
    · rename_i hcontrol
      rw [run_code purpose text around hcontrol, Char.ofNat_toNat]
    · rename_i hplain
      simp [run, step, stepQuoted, hshort, hplain]

/-- A text is read from its escapes. -/
theorem run_escapes (more : List Char) :
    run ⟨.quoted purpose text .plain, around⟩ (more.flatMap escape) =
      some ⟨.quoted purpose (text ++ more) .plain, around⟩ := by
  induction more generalizing text with
  | nil => rw [List.flatMap_nil, run_nil, List.append_nil]
  | cons c more ih =>
      rw [List.flatMap_cons, run_append_of_run (run_escape purpose text around c), ih,
        List.append_assoc, List.singleton_append]

variable {purpose around}

/-- Where the grammar allows for a string, it is read as it is written. -/
theorem run_quote {reader : Reader}
    (h : step reader '"' = some ⟨.quoted purpose [] .plain, around⟩) (s : String) :
    run reader (quote s) = some ⟨purpose.closed s.toList, around⟩ := by
  unfold quote
  rw [run_cons_of_step h, run_append_of_run (run_escapes purpose [] around s.toList)]
  rfl

end Quoted

/-- Where the machine stands after the text of a value: a number might go on. -/
def readAs : Json → Reading
  | .number 0 => .after (.number 0)
  | .number (n + 1) => .digits (n + 1)
  | value => .after value

theorem step_digits_digitChar {n : Nat} (h : n < 10) (value : Nat) (around : List Frame) :
    step ⟨.digits value, around⟩ n.digitChar = some ⟨.digits (10 * value + n), around⟩ := by
  interval_cases n <;> rfl

/-- A number is read as it is written. -/
theorem run_toDigits (n : Nat) (around : List Frame) :
    run ⟨.value, around⟩ (Nat.toDigits 10 n) = some ⟨readAs (.number n), around⟩ := by
  induction n using Nat.strongRecOn with
  | ind n ih =>
      by_cases hsmall : n < 10
      · rw [Nat.toDigits_of_lt_base hsmall]
        interval_cases n <;> rfl
      · have hhead := ih (n / 10) (by omega)
        have hvalue : 10 * (n / 10) + n % 10 = n := by omega
        have hdigit := step_digits_digitChar (Nat.mod_lt n (by omega)) (n / 10) around
        obtain ⟨head, hfirst⟩ := Nat.exists_eq_succ_of_ne_zero (n := n / 10) (by omega)
        obtain ⟨k, hn⟩ := Nat.exists_eq_succ_of_ne_zero (n := n) (by omega)
        have hstart : readAs (.number (n / 10)) = .digits (n / 10) := by
          rw [hfirst]
          rfl
        have hend : readAs (.number n) = .digits n := by
          rw [hn]
          rfl
        rw [Nat.toDigits_of_base_le (by omega) (by omega), run_append_of_run hhead, hstart,
          run_cons_of_step hdigit, hvalue, hend, run_nil]

/-- A character that is no digit ends a number, and is taken like after any other value. -/
theorem run_readAs {c : Char} (h : c.isDigit = false) (value : Json) (around : List Frame)
    (rest : List Char) :
    run ⟨readAs value, around⟩ (c :: rest) = run ⟨.after value, around⟩ (c :: rest) := by
  have hstep : step ⟨readAs value, around⟩ c = step ⟨.after value, around⟩ c := by
    unfold readAs
    split
    · rfl
    · simp [step, h]
    · rfl
  rw [run_cons, hstep, ← run_cons]

/-- So is the start of a line. -/
theorem run_readAs_newline (value : Json) (around : List Frame) (depth : Nat) (rest : List Char) :
    run ⟨readAs value, around⟩ (newline depth ++ rest) = run ⟨.after value, around⟩ rest := by
  have hafter : run ⟨.after value, around⟩ (newline depth ++ rest) =
      run ⟨.after value, around⟩ rest :=
    run_newline (fun c hc => by simp [step, resume?, hc]) depth rest
  rw [← hafter]
  exact run_readAs (by decide) value around _

/-- The text of a value starts with it: with no blank, and not with the end of an array. -/
theorem exists_render_eq_cons (depth : Nat) (value : Json) :
    ∃ c rest, render depth value = c :: rest ∧ isBlank c = false ∧ c ≠ ']' := by
  match value with
  | .bool true => exact ⟨_, _, rfl, by decide⟩
  | .bool false => exact ⟨_, _, rfl, by decide⟩
  | .string _ => exact ⟨_, _, rfl, by decide⟩
  | .array [] => exact ⟨_, _, rfl, by decide⟩
  | .array (_ :: _) => exact ⟨_, _, rfl, by decide⟩
  | .object [] => exact ⟨_, _, rfl, by decide⟩
  | .object (_ :: _) => exact ⟨_, _, rfl, by decide⟩
  | .number n =>
      have hne : Nat.toDigits 10 n ≠ [] := Nat.toDigits_ne_nil
      obtain ⟨c, rest, hdigits⟩ := List.exists_cons_of_ne_nil hne
      have hdigit : c.isDigit = true :=
        Nat.isDigit_of_mem_toDigits (by omega) (by omega) (hdigits ▸ List.mem_cons_self)
      refine ⟨c, rest, hdigits, ?_, ?_⟩
      · by_contra hblank
        simp only [isBlank, Bool.not_eq_false, Bool.or_eq_true, decide_eq_true_eq] at hblank
        rcases hblank with ((rfl | rfl) | rfl) | rfl <;> cases hdigit
      · rintro rfl
        cases hdigit

/-- The first item of an array is read like any other. -/
theorem run_firstItem (depth : Nat) (value : Json) (around : List Frame) :
    run ⟨.firstItem, around⟩ (render depth value) =
      run ⟨.value, .array [] :: around⟩ (render depth value) := by
  obtain ⟨c, rest, hrender, hblank, hend⟩ := exists_render_eq_cons depth value
  have hstep : step ⟨.firstItem, around⟩ c = step ⟨.value, .array [] :: around⟩ c := by
    simp [step, hblank, hend]
  rw [hrender, run_cons, hstep, ← run_cons]

/-- A key and its colon lead to the value of a member. -/
theorem run_key {reader : Reader} {members : List (String × Json)} {around : List Frame}
    (h : step reader '"' = some ⟨.quoted (.key members) [] .plain, around⟩) (key : String)
    (rest : List Char) :
    run reader (quote key ++ ([':', ' '] ++ rest)) =
      run ⟨.value, .object members key :: around⟩ rest := by
  rw [run_append_of_run (run_quote h key), Purpose.closed, String.ofList_toList]
  rfl

mutual

/-- A value is read as it is written, inside of any containers. -/
theorem run_render (depth : Nat) (value : Json) (around : List Frame) :
    run ⟨.value, around⟩ (render depth value) = some ⟨readAs value, around⟩ := by
  match value with
  | .bool true => rfl
  | .bool false => rfl
  | .number n => exact run_toDigits n around
  | .string s =>
      have hstart : step ⟨.value, around⟩ '"' = some ⟨.quoted .value [] .plain, around⟩ := rfl
      rw [render, run_quote hstart, Purpose.closed, String.ofList_toList]
      rfl
  | .array [] => rfl
  | .array (item :: items) =>
      have hitem := run_render (depth + 1) item (.array [] :: around)
      have hitems := run_renderItems (depth + 1) depth item items [] around
      rw [← run_firstItem] at hitem
      rw [render]
      simp only [List.append_assoc]
      rw [List.cons_append, run_cons_of_step rfl, run_newline (fun c hc => by simp [step, hc]),
        run_append_of_run hitem, hitems]
      rfl
  | .object [] => rfl
  | .object ((key, value) :: members) =>
      have hvalue := run_render (depth + 1) value (.object [] key :: around)
      have hmembers := run_renderMembers (depth + 1) depth key value members [] around
      rw [render]
      simp only [List.append_assoc]
      rw [List.cons_append, run_cons_of_step rfl, run_newline (fun c hc => by simp [step, hc]),
        run_key rfl, run_append_of_run hvalue, hmembers]
      rfl

/-- What is left of an array after one of its items. -/
theorem run_renderItems (depth outer : Nat) (last : Json) (items earlier : List Json)
    (around : List Frame) :
    run ⟨readAs last, .array earlier :: around⟩
        (renderItems depth items ++ (newline outer ++ [']'])) =
      some ⟨.after (.array (earlier ++ last :: items)), around⟩ := by
  match items with
  | [] =>
      rw [renderItems, List.nil_append, run_readAs_newline]
      rfl
  | item :: items =>
      have hitem := run_render depth item (.array (earlier ++ [last]) :: around)
      have hitems := run_renderItems depth outer item items (earlier ++ [last]) around
      rw [List.append_assoc, List.singleton_append] at hitems
      rw [renderItems]
      simp only [List.append_assoc]
      rw [List.cons_append, run_readAs (by decide), run_cons_of_step rfl,
        run_newline (fun c hc => by simp [step, hc]), run_append_of_run hitem, hitems]

/-- What is left of an object after the value of one of its members. -/
theorem run_renderMembers (depth outer : Nat) (key : String) (last : Json)
    (members earlier : List (String × Json)) (around : List Frame) :
    run ⟨readAs last, .object earlier key :: around⟩
        (renderMembers depth members ++ (newline outer ++ ['}'])) =
      some ⟨.after (.object (earlier ++ (key, last) :: members)), around⟩ := by
  match members with
  | [] =>
      rw [renderMembers, List.nil_append, run_readAs_newline]
      rfl
  | (next, value) :: members =>
      let longer := earlier ++ [(key, last)]
      have hvalue := run_render depth value (.object longer next :: around)
      have hmembers := run_renderMembers depth outer next value members longer around
      rw [List.append_assoc, List.singleton_append] at hmembers
      rw [renderMembers]
      simp only [List.append_assoc]
      rw [List.cons_append, run_readAs (by decide), run_cons_of_step rfl,
        run_newline (fun c hc => by simp [step, hc]), run_key rfl, run_append_of_run hvalue,
        hmembers]

end

/-- A document is read as the value that it was written for. -/
theorem read?_pretty (value : Json) : read? value.pretty = some value := by
  unfold read? pretty
  rw [run_render]
  unfold readAs
  split <;> rfl

/-- The grammar allows for more than is written: other blanks, and any escapes. -/
example : read? "[\x7b\"\\u0061\":10\x7d,\ttrue ]".toList =
    some (.array [.object [("a", .number 10)], .bool true]) := by
  rfl

/-- It does not allow for a comma after the last item. -/
example : read? "[1,]".toList = none := by
  rfl

end ExplicitImports.Json
