import ExplicitImports.Text.Utf8

/-!
# Paths

A path is a byte string cut at its slashes.  Two paths are `Alike` when their
components agree: doubled and trailing slashes and a `.` past the start do not
count, while a leading `.` and every `..` do.  Only a disk can say where a path
leads.
-/

namespace ExplicitImports

/-- A path as it was written. -/
structure Path where
  bytes : Bytes
  deriving DecidableEq, Repr

namespace Path

/-- The path that a string spells. -/
def ofString (s : String) : Path :=
  ⟨Utf8.ofString s⟩

/-- The byte that parts a path. -/
def slash : UInt8 := 0x2F

/-- The byte of a lone dot. -/
def dot : UInt8 := 0x2E

/-- The parts between slashes, empty ones included; there is always one. -/
def split : Bytes → List Bytes
  | [] => [[]]
  | b :: rest =>
      if b = slash then [] :: split rest
      else match split rest with
        | [] => [[b]]
        | part :: parts => (b :: part) :: parts

/-- The parts that are not empty. -/
def parts (path : Path) : List Bytes :=
  (split path.bytes).filter (· ≠ [])

/-- Does the path start at the root of the disk? -/
def isAbsolute (path : Path) : Bool :=
  path.bytes.head? = some slash

/-- Does the path ask for a directory by ending in a slash? -/
def endsInSlash (path : Path) : Bool :=
  path.bytes.getLast? = some slash

/-- The parts that tell two paths apart: a `.` counts at the start of a relative
path only. -/
def components (path : Path) : List Bytes :=
  match path.parts with
  | [] => []
  | part :: rest =>
      let rest := rest.filter (· ≠ [dot])
      if part = [dot] ∧ path.isAbsolute then rest else part :: rest

/-- Paths that agree component by component. -/
def Alike (p q : Path) : Prop :=
  p.isAbsolute = q.isAbsolute ∧ p.components = q.components

instance (p q : Path) : Decidable (Alike p q) := by
  unfold Alike
  infer_instance

/-- The path of something inside a directory. -/
def join (path : Path) (name : Bytes) : Path :=
  if path.endsInSlash then ⟨path.bytes ++ name⟩
  else ⟨path.bytes ++ slash :: name⟩

/-- The last component, or the whole path where that is no name. -/
def fileName (path : Path) : Bytes :=
  match path.components.getLast? with
  | none => path.bytes
  | some part => if part = [dot] ∨ part = [dot, dot] then path.bytes else part

/-- The path as messages show it. -/
def display (path : Path) : String :=
  Utf8.stringLossy path.bytes

/-- The path as a string, if it is UTF-8. -/
def string? (path : Path) : Option String :=
  Utf8.string? path.bytes

@[simp] theorem split_nil : split [] = [[]] := rfl

theorem split_ne_nil (bytes : Bytes) : split bytes ≠ [] := by
  cases bytes with
  | nil => simp
  | cons b rest =>
      simp only [split]
      split
      · simp
      · split <;> simp

/-- Parts of two strings joined by a slash are the parts of both. -/
theorem split_append_slash (a b : Bytes) :
    split (a ++ slash :: b) = split a ++ split b := by
  induction a with
  | nil => simp [split]
  | cons x a ih =>
      simp only [List.cons_append, split, ih]
      split
      · rfl
      · cases h : split a with
        | nil => exact absurd h (split_ne_nil a)
        | cons part parts => rfl

theorem alike_refl (p : Path) : Alike p p := ⟨rfl, rfl⟩

theorem length_lt_length_join (path : Path) {name : Bytes} (h : name ≠ []) :
    path.bytes.length < (path.join name).bytes.length := by
  have := List.length_pos_iff.2 h
  unfold join
  split
  · simp only [List.length_append]
    omega
  · simp only [List.length_append, List.length_cons]
    omega

end Path

end ExplicitImports
