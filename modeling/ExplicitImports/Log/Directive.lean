import ExplicitImports.Log.Pattern
import ExplicitImports.Log.Record
import ExplicitImports.Text.Utf8

/-!
# Directives of a log filter

A directive is a level, a target, or both as `target=level`; between brackets it
may name a span and a field with its value, as in `target[span{field=value}]=level`.
A run has no spans, so a directive for one shows nothing; one for a field alone
applies to the records that have the field.

Blanks around a directive are passed over when it is cut into parts, while the
parts are taken by their positions from the text with its blanks.
-/

namespace ExplicitImports.Log

/-- The level that a text names, by its name or by its number; `off` is none. -/
def level? (text : String) : Option (Option Level) :=
  let names : List (String × Option Level) :=
    [("off", none), ("error", some .error), ("warn", some .warn), ("info", some .info),
      ("debug", some .debug), ("trace", some .trace)]
  match number? text.toList with
  | some n => (names[n]?).map (·.2)
  | none => names.lookup (text.map Char.toLower)
where
  /-- The number that a text of digits writes, perhaps after a plus sign. -/
  number? : List Char → Option Nat
    | '+' :: digits => digits? digits
    | digits => digits? digits
  digits? (text : List Char) : Option Nat :=
    if text ≠ [] ∧ text.all Char.isDigit then
      some (text.foldl (fun n c => n * 10 + (c.toNat - '0'.toNat)) 0)
    else none

/-- A field that records or spans are asked for, perhaps with a value. -/
structure Field where
  name : String
  value : Option String := none
  deriving DecidableEq, Repr

/-- A level for some of the records. -/
structure Directive where
  /-- Only records whose target starts with this text. -/
  target : Option String := none
  /-- What happens inside spans of this name only. -/
  span : Option String := none
  field : Option Field := none
  /-- The level up to which records are shown; no level shows none of them. -/
  level : Option Level
  deriving DecidableEq, Repr

namespace Field

/-- Read a field; what follows a second equals sign does not count. -/
def parse? (text : String) : Option Field :=
  match text.splitOn "=" with
  | name :: value :: _ =>
      if text ≠ "" ∧ Pattern.isWellFormed value.toList then some { name, value := some value }
      else none
  | _ => if text ≠ "" then some { name := text } else none

end Field

namespace Directive

/-- Does the directive say something about records? -/
def concernsRecords (directive : Directive) : Bool :=
  directive.span.isNone && directive.field.all (·.value.isNone)

/-- Does the directive say something about spans? -/
def concernsSpans (directive : Directive) : Bool :=
  directive.span.isSome || directive.field.isSome

/-- Does the directive apply to a record? -/
def appliesTo (directive : Directive) (record : Record) : Bool :=
  directive.target.all (·.toList.isPrefixOf record.target.toList) &&
    directive.field.all fun field => field.name ∈ record.fieldNames

/-- Among directives for one record, is this one at least as close as the other?
A longer target is closer than a shorter one and any target than none; then any
field is closer than none, and a later name than an earlier one. -/
def isAsClose (directive other : Directive) : Bool :=
  let reach (directive : Directive) : Nat :=
    match directive.target with
    | none => 0
    | some target => target.utf8ByteSize + 1
  reach other < reach directive || reach other = reach directive &&
    match directive.field, other.field with
    | _, none => true
    | none, some _ => false
    | some field, some otherField => otherField.name ≤ field.name

def shows (directive : Directive) (record : Record) : Bool :=
  match directive.level with
  | some level => record.level.shownAt level
  | none => false

/-- May a directive start with this character? -/
def startsWith (c : Char) : Bool :=
  c = '[' || c = '-' || c = ':' || c = '_' || CharacterClass.isLetterOrNumber c

/-- How many bytes a text takes. -/
def size (text : List Char) : Nat :=
  (Utf8.encode text).length

/-- The bytes of a text from one position up to another, if they are a text. -/
def slice? (text : List Char) (start length : Nat) : Option String :=
  Utf8.string? (((Utf8.encode text).drop start).take length)

/-- The level that stands from a position on; nothing there shows everything. -/
def levelFrom? (text : List Char) (start : Nat) : Option (Option Level) := do
  let name ← slice? text start (size text)
  if name = "" then return some .trace else level? name

/-- The level after what stands between brackets, if it ends there. -/
def levelAfter? (text : List Char) (start : Nat) (rest : List Char) : Option (Option Level) :=
  match rest with
  | [] => some (some .trace)
  | '=' :: _ => levelFrom? text (start + 1)
  | _ => none

/-- Read what stands between brackets and after them, from a position on. -/
def parseBrackets? (text : List Char) (target : Option String) (start : Nat)
    (rest : List Char) : Option Directive := do
  let span := rest.takeWhile fun c => c ≠ ']' ∧ c ≠ '\x7b'
  let spanName ← slice? text start (size span)
  let start := start + size span + 1
  match rest.drop span.length with
  | ']' :: rest =>
      return { target, span := some spanName, level := ← levelAfter? text start rest }
  | _ :: rest =>
      let inner := rest.takeWhile (· ≠ '\x7d')
      let field ← Field.parse? (← slice? text start (size inner))
      match rest.drop inner.length with
      | _ :: ']' :: rest =>
          return {
            target
            span := if spanName = "" then none else some spanName
            field := some field
            level := ← levelAfter? text (start + size inner + 2) rest }
      | _ => none
  | [] => none

/-- Read one directive. -/
def parse? (text : List Char) : Option Directive := do
  let inner := CharacterClass.trim text
  if (inner.head?.map startsWith).getD false then
    let head := inner.takeWhile fun c => c ≠ '=' ∧ c ≠ '['
    match inner.drop head.length with
    | [] =>
        match level? (String.ofList text) with
        | some level => return { level }
        | none => return { target := some (String.ofList text), level := some .trace }
    | '=' :: _ =>
        return {
          target := some (← slice? text 0 (size head))
          level := ← levelFrom? text (size head + 1) }
    | _ :: rest =>
        let target ← if head = [] then some none else (slice? text 0 (size head)).map some
        parseBrackets? text target (size head + 1) rest
  else none

end Directive

end ExplicitImports.Log
