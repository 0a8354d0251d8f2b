import ExplicitImports.Disk.Basic

/-!
# Access by path

How a path is followed to a location, and what a program may ask about or do
there: `stat`, `list`, `read` and `write`.  A path is followed part by part; each
part is looked up in a directory, and links are followed up to a fixed number of
times, so every path ends somewhere or fails.  `put` and `discard` change a disk
from outside: what they place or take away stands where a path's last part says,
in the directory that the parts before it lead to.
-/

namespace ExplicitImports

namespace Disk

/-- The system refuses paths of this many bytes and more. -/
def pathLimit : Nat := 4096

/-- How many links one path may lead through. -/
def linkLimit : Nat := 40

/-- The parts to follow: a slash at the end asks for a directory, as a `.` does. -/
def route (path : Path) : List Bytes :=
  if path.endsInSlash then path.parts ++ [[Path.dot]] else path.parts

/-- Follow parts from a location up to the first link, which `onLink` takes on
with the directory it stands in, its target and the parts after it. -/
def advance (disk : Disk)
    (onLink : Location → Path → List Bytes → Except IoError Location) :
    Location → List Bytes → Except IoError Location
  | here, [] => .ok here
  | here, part :: rest =>
      if disk.lookup here ≠ some .dir then .error (.os .notADirectory)
      else if part = [Path.dot] then disk.advance onLink here rest
      else if part = [Path.dot, Path.dot] then disk.advance onLink here.dropLast rest
      else match Name.ofBytes? part with
        | none => .error (.os .nameTooLong)
        | some name =>
            match disk.lookup (here ++ [name]) with
            | none => .error (.os .notFound)
            | some (.link target) => onLink here target rest
            | some _ => disk.advance onLink (here ++ [name]) rest

/-- Follow parts from a location through at most `links` links. -/
def follow (disk : Disk) : (links : Nat) → Location → List Bytes → Except IoError Location
  | 0 => disk.advance fun _ _ _ => .error (.os .tooManyLinks)
  | links + 1 => disk.advance fun here target rest =>
      disk.follow links (if target.isAbsolute then [] else here) (route target ++ rest)

/-- Where the parts of a path start from. -/
def start (disk : Disk) (path : Path) : Location :=
  if path.isAbsolute then [] else disk.cwd

/-- The location a path leads to. -/
def resolve (disk : Disk) (path : Path) : Except IoError Location :=
  if 0 ∈ path.bytes then .error .nulInPath
  else if path.bytes = [] then .error (.os .notFound)
  else if pathLimit ≤ path.bytes.length then .error (.os .nameTooLong)
  else disk.follow linkLimit (disk.start path) (route path)

/-- The node a path leads to, and where it stands. -/
def resolveNode (disk : Disk) (path : Path) : Except IoError (Location × Node) := do
  let place ← disk.resolve path
  match disk.lookup place with
  | none => .error (.os .notFound)
  | some node => .ok (place, node)

/-- The type of what a path leads to. -/
def stat (disk : Disk) (path : Path) : Except IoError NodeKind := do
  let (_, node) ← disk.resolveNode path
  return node.kind

/-- The entries of the directory a path leads to. -/
def list (disk : Disk) (path : Path) : Except IoError (List (Name × NodeKind)) := do
  let (place, node) ← disk.resolveNode path
  match node with
  | .dir =>
      disk.openAt place
      return disk.entries place
  | _ => .error (.os .notADirectory)

/-- The bytes of the file a path leads to; a pipe that nobody writes to has none. -/
def read (disk : Disk) (path : Path) : Except IoError Bytes := do
  let (place, node) ← disk.resolveNode path
  disk.openAt place
  match node with
  | .file data => .ok data
  | .dir => .error (.os .isADirectory)
  | .link _ => .error (.os .tooManyLinks)
  | .pipe => .ok []

/-- The text of the file a path leads to. -/
def readText (disk : Disk) (path : Path) : Except IoError (List Char) := do
  match Utf8.decode? (← disk.read path) with
  | some text => .ok text
  | none => .error .notUtf8

/-- Put new bytes into the file a path leads to.  The file is emptied first, so
bytes that it has no room for leave it with as many as fit. -/
def write (disk : Disk) (path : Path) (data : Bytes) : Except IoError Unit × Disk :=
  match disk.resolveNode path with
  | .error e => (.error e, disk)
  | .ok (_, .dir) => (.error (.os .isADirectory), disk)
  | .ok (_, .link _) => (.error (.os .tooManyLinks), disk)
  | .ok (_, .pipe) => (.ok (), disk)
  | .ok (place, .file _) =>
      if place ∈ disk.readOnly then (.error (.os .permissionDenied), disk)
      else match disk.room? place with
        | none => (.ok (), disk.setData place data)
        | some (room, answer) =>
            if data.length ≤ room then (.ok (), disk.setData place data)
            else (.error (.os answer), disk.setData place (data.take room))

/-- Go on from a location to the directory that parts lead to, links followed, and
make a directory wherever a name is free. -/
def makeWay (disk : Disk) (here : Location) : List Bytes → Except IoError (Disk × Location)
  | [] => .ok (disk, here)
  | part :: rest =>
      if part = [Path.dot] then disk.makeWay here rest
      else if part = [Path.dot, Path.dot] then disk.makeWay here.dropLast rest
      else match Name.ofBytes? part with
        | none => .error (.os .nameTooLong)
        | some name =>
            match disk.lookup (here ++ [name]) with
            | none => (disk.place (here ++ [name]) .dir).makeWay (here ++ [name]) rest
            | some .dir => disk.makeWay (here ++ [name]) rest
            | some (.link _) => do
                let there ← disk.follow linkLimit here [part]
                match disk.lookup there with
                | some .dir => disk.makeWay there rest
                | some _ => .error (.os .notADirectory)
                | none => .error (.os .notFound)
            | some _ => .error (.os .notADirectory)

/-- The parts up to the last one and the last one itself, which names a node in the
directory that the others lead to. -/
def splitLast? (path : Path) : Option (List Bytes × Name) := do
  let parts := path.parts.filter (· ≠ [Path.dot])
  return (parts.dropLast, ← Name.ofBytes? (← parts.getLast?))

/-- The location that a path names: its last part, not followed as a link, in the
directory that the parts before it lead to. -/
def named? (disk : Disk) (path : Path) : Option Location := do
  let (directories, name) ← splitLast? path
  match disk.follow linkLimit (disk.start path) directories with
  | .ok directory => return directory ++ [name]
  | .error _ => none

/-- Is there a directory where a path says?  A link to one counts if the path ends
in a slash. -/
def hasDir (disk : Disk) (path : Path) : Bool :=
  (disk.named? path).bind disk.lookup = some .dir ||
    path.endsInSlash && (disk.stat path).toOption = some .dir

/-- The disk without what stands where a path says, and without all below it. -/
def discard (disk : Disk) (path : Path) : Disk :=
  match disk.named? path with
  | some place => disk.remove place
  | none => disk

/-- A node as the disk takes it at a location: of a file no more than there is
room for. -/
def fitted (disk : Disk) (place : Location) (node : Node) : Node :=
  match node, disk.room? place with
  | .file data, some (room, _) => .file (data.take room)
  | node, _ => node

/-- The disk with a node put where a path says.  What stood there goes first, even
if it was a link that the path leads through; then directories are made where they
are missing. -/
def put (disk : Disk) (path : Path) (node : Node) : Disk :=
  if node = .dir ∧ disk.hasDir path then disk
  else match splitLast? path with
    | none => disk
    | some (directories, name) =>
        match (disk.discard path).makeWay (disk.start path) directories with
        | .ok (disk, directory) =>
            let place := directory ++ [name]
            disk.place place (disk.fitted place node)
        | .error _ => disk

theorem lookup_of_resolveNode {disk : Disk} {path : Path} {place : Location} {node : Node}
    (h : disk.resolveNode path = .ok (place, node)) : disk.lookup place = some node := by
  unfold resolveNode at h
  cases hplace : disk.resolve path with
  | error e => simp [hplace, bind, Except.bind] at h
  | ok found =>
      simp only [hplace, bind, Except.bind] at h
      cases hnode : disk.lookup found with
      | none => simp [hnode] at h
      | some there =>
          simp only [hnode, Except.ok.injEq, Prod.mk.injEq] at h
          obtain ⟨rfl, rfl⟩ := h
          exact hnode

/-- How a write may go. -/
inductive WriteCase (disk : Disk) (path : Path) (data : Bytes) :
    Except IoError Unit × Disk → Prop
  /-- Nothing was opened. -/
  | refused {cause : IoError}
      (hclosed : ∀ place old, disk.resolveNode path = .ok (place, .file old) →
        place ∈ disk.readOnly) :
      WriteCase disk path data (.error cause, disk)
  | drained {place : Location} (hnode : disk.resolveNode path = .ok (place, .pipe)) :
      WriteCase disk path data (.ok (), disk)
  /-- The file was emptied, and has no room for all of the data. -/
  | stopped {place : Location} {old : Bytes} {room : Nat} {answer : OsError}
      (hnode : disk.resolveNode path = .ok (place, .file old)) (hopen : place ∉ disk.readOnly)
      (hroom : disk.room? place = some (room, answer)) (hlong : room < data.length) :
      WriteCase disk path data (.error (.os answer), disk.setData place (data.take room))
  | done {place : Location} {old : Bytes}
      (hnode : disk.resolveNode path = .ok (place, .file old)) (hopen : place ∉ disk.readOnly)
      (hfits : ∀ room answer, disk.room? place = some (room, answer) → data.length ≤ room) :
      WriteCase disk path data (.ok (), disk.setData place data)

/-- A write goes in one of these ways. -/
theorem writeCase_write (disk : Disk) (path : Path) (data : Bytes) :
    WriteCase disk path data (disk.write path data) := by
  unfold write
  split
  · rename_i hnode
    exact .refused fun place old h => by simp [hnode] at h
  · rename_i hnode
    exact .refused fun place old h => by simp [hnode] at h
  · rename_i hnode
    exact .refused fun place old h => by simp [hnode] at h
  · rename_i hnode
    exact .drained hnode
  · rename_i place old hnode
    split
    · rename_i hclosed
      refine .refused fun other data h => ?_
      rw [hnode] at h
      cases h
      exact hclosed
    · rename_i hopen
      split
      · rename_i hroom
        exact .done hnode hopen fun room answer h => by simp [hroom] at h
      · rename_i room answer hroom
        split
        · rename_i hfits
          refine .done hnode hopen fun other reply h => ?_
          rw [hroom] at h
          cases h
          exact hfits
        · rename_i hlong
          exact .stopped hnode hopen hroom (Nat.lt_of_not_le hlong)

/-- A write changes no more than the data of the file it goes to. -/
theorem lookup_write (disk : Disk) (path : Path) (data : Bytes) (other : Location) :
    (disk.write path data).2.lookup other = disk.lookup other ∨
      ∃ old new, disk.resolveNode path = .ok (other, .file old) ∧
        (disk.write path data).2.lookup other = some (.file new) := by
  have frame {place : Location} {old : Bytes} (new : Bytes)
      (h : disk.resolveNode path = .ok (place, .file old)) :
      (disk.setData place new).lookup other = disk.lookup other ∨
        ∃ old new', disk.resolveNode path = .ok (other, .file old) ∧
          (disk.setData place new).lookup other = some (.file new') := by
    have hkind : disk.kind? place = some .file := by
      simp [kind?, lookup_of_resolveNode h, Node.kind]
    rw [lookup_setData disk place other new hkind]
    by_cases hother : other = place
    · subst hother
      exact .inr ⟨old, new, h, by simp⟩
    · simp [hother]
  have hcase := disk.writeCase_write path data
  generalize disk.write path data = written at hcase ⊢
  cases hcase with
  | refused hclosed => exact .inl rfl
  | drained hnode => exact .inl rfl
  | stopped hnode hopen hroom hlong => exact frame _ hnode
  | done hnode hopen hfits => exact frame _ hnode

end Disk

end ExplicitImports
