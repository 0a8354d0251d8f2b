import ExplicitImports.Disk.Error

/-!
# Disks

A disk is a list of nodes, each at a location: the names that lead to it from
the root.  The root itself is always a directory.  What a location holds is told
by `Disk.lookup`, what a directory holds by `Disk.entries`; `Disk.place` and
`Disk.remove` change the nodes from outside, and every location that was placed
or opened for writing is kept in the disk's journal.
-/

namespace ExplicitImports

/-- The name of a node in its directory. -/
structure Name where
  bytes : Bytes
  valid : bytes ≠ [] ∧ bytes.length ≤ 255 ∧ Path.slash ∉ bytes ∧ 0 ∉ bytes ∧
    bytes ≠ [Path.dot] ∧ bytes ≠ [Path.dot, Path.dot]
  deriving DecidableEq

namespace Name

def ofBytes? (bytes : Bytes) : Option Name :=
  if h : _ then some ⟨bytes, h⟩ else none

/-- The name as text, for tests on it. -/
def text (name : Name) : String :=
  Utf8.stringLossy name.bytes

theorem bytes_ofBytes? {bytes : Bytes} {name : Name} (h : ofBytes? bytes = some name) :
    name.bytes = bytes := by
  unfold ofBytes? at h
  split at h
  · cases h
    rfl
  · cases h

@[simp] theorem ofBytes?_bytes (name : Name) : ofBytes? name.bytes = some name := by
  unfold ofBytes?
  rw [dif_pos name.valid]

end Name

/-- The names that a path spells. -/
def Path.names (path : Path) : List Name :=
  path.parts.filterMap Name.ofBytes?

/-- A place on a disk: the names that lead to it from the root. -/
abbrev Location := List Name

/-- What may stand at a location. -/
inductive Node where
  | file (data : Bytes)
  | dir
  | link (target : Path)
  | pipe
  deriving DecidableEq

/-- The types that a directory tells its entries apart by. -/
inductive NodeKind where
  | file
  | dir
  | link
  | pipe
  deriving DecidableEq, Repr

def Node.kind : Node → NodeKind
  | .file _ => .file
  | .dir => .dir
  | .link _ => .link
  | .pipe => .pipe

/-- How many bytes a node takes up. -/
def Node.size : Node → Nat
  | .file data => data.length
  | .dir | .link _ | .pipe => 0

/-- A tree of nodes with a working directory.  Where `sizeLimit` is given, no
write makes a file longer; where `capacity` is given, no write makes all files
together hold more bytes than that.  What is `readOnly` cannot be opened for
writing.  What is `unreadable` cannot be opened for reading, a directory no more
than a file, and the answer to that stands beside it: permission is denied, say,
or the device fails. -/
structure Disk where
  nodes : List (Location × Node)
  cwd : Location := []
  sizeLimit : Option Nat := none
  capacity : Option Nat := none
  readOnly : List Location := []
  unreadable : List (Location × IoError) := []
  journal : List Location := []

namespace Disk

/-- A disk that holds one empty directory, in which one works. -/
def empty (cwd : Name) : Disk :=
  { nodes := [([cwd], .dir)], cwd := [cwd] }

/-- The node at a location. -/
def lookup (disk : Disk) (place : Location) : Option Node :=
  if place = [] then some .dir else disk.nodes.lookup place

def kind? (disk : Disk) (place : Location) : Option NodeKind :=
  (disk.lookup place).map Node.kind

/-- The name that a location has in a directory, if it is right inside it. -/
def nameIn? (directory place : Location) : Option Name :=
  if place.dropLast = directory then place.getLast? else none

/-- The names of what is right inside a directory. -/
def names (disk : Disk) (directory : Location) : List Name :=
  (disk.nodes.filterMap fun (place, _) => nameIn? directory place).eraseDups

/-- The entries of a directory in the order of their names' bytes, each with the
type it has. -/
def entries (disk : Disk) (directory : Location) : List (Name × NodeKind) :=
  ((disk.names directory).filterMap fun name =>
    (disk.kind? (directory ++ [name])).map (name, ·)).mergeSort
      fun a b => a.1.bytes ≤ b.1.bytes

/-- How many bytes are taken up at all locations but one. -/
def sizeElsewhere (disk : Disk) (place : Location) : Nat :=
  disk.nodes.foldl (fun total (other, node) => if other = place then total else total + node.size) 0

/-- How many bytes the file at a location can hold at most, and what the system
answers to a write that goes on past them. -/
def room? (disk : Disk) (place : Location) : Option (Nat × OsError) :=
  match disk.sizeLimit, disk.capacity.map (· - disk.sizeElsewhere place) with
  | none, none => none
  | some limit, none => some (limit, .fileTooLarge)
  | none, some free => some (free, .noSpace)
  | some limit, some free =>
      if limit ≤ free then some (limit, .fileTooLarge) else some (free, .noSpace)

/-- Does the disk take every write to a file? -/
def unbounded (disk : Disk) : Bool :=
  disk.sizeLimit.isNone && disk.capacity.isNone && disk.readOnly.isEmpty

/-- Can what stands at a location be opened for reading? -/
def Readable (disk : Disk) (place : Location) : Prop :=
  disk.unreadable.lookup place = none

instance (disk : Disk) (place : Location) : Decidable (disk.Readable place) :=
  inferInstanceAs (Decidable (_ = none))

/-- Open what stands at a location for reading. -/
def openAt (disk : Disk) (place : Location) : Except IoError Unit :=
  match disk.unreadable.lookup place with
  | some cause => .error cause
  | none => .ok ()

/-- The disk without what stands at a location and below it. -/
def remove (disk : Disk) (place : Location) : Disk :=
  let kept (other : Location) : Bool := !place.isPrefixOf other
  { disk with
    nodes := disk.nodes.filter fun (other, _) => kept other
    readOnly := disk.readOnly.filter kept
    unreadable := disk.unreadable.filter fun (other, _) => kept other }

/-- The disk with a node put at a location in place of what stood there. -/
def place (disk : Disk) (place : Location) (node : Node) : Disk :=
  if place = [] then disk
  else
    let cleared := disk.remove place
    { cleared with
      nodes := cleared.nodes ++ [(place, node)]
      journal := place :: disk.journal }

/-- The disk with other data in the file at a location. -/
def setData (disk : Disk) (place : Location) (data : Bytes) : Disk :=
  { disk with
    nodes := disk.nodes.map fun (other, node) =>
      (other, if other = place then .file data else node)
    journal := place :: disk.journal }

/-- The path of a location below the working directory, seen from there. -/
def pathFromCwd? (disk : Disk) (place : Location) : Option Path :=
  if disk.cwd.isPrefixOf place then
    match (place.drop disk.cwd.length).map Name.bytes with
    | [] => none
    | name :: names => some ⟨names.foldl (fun path name => path ++ Path.slash :: name) name⟩
  else none

/-- Everything below the working directory, in the order of the paths' bytes. -/
def contents (disk : Disk) : List (Path × Node) :=
  (disk.nodes.filterMap fun (place, node) => (disk.pathFromCwd? place).map (·, node)).mergeSort
    fun a b => a.1.bytes ≤ b.1.bytes

/-- The regular files of the journal, in the order of the paths' bytes. -/
def writtenFiles (disk : Disk) : List Path :=
  let files := disk.journal.eraseDups.filter fun place => disk.kind? place = some .file
  (files.filterMap disk.pathFromCwd?).mergeSort fun a b => a.bytes ≤ b.bytes

theorem unbounded_iff (disk : Disk) :
    disk.unbounded = true ↔
      disk.sizeLimit = none ∧ disk.capacity = none ∧ disk.readOnly = [] := by
  simp [unbounded, and_assoc]

theorem room?_of_unbounded {disk : Disk} (h : disk.unbounded = true) (place : Location) :
    disk.room? place = none := by
  obtain ⟨hlimit, hcapacity, -⟩ := disk.unbounded_iff.1 h
  simp [room?, hlimit, hcapacity]

theorem openAt_eq_ok_iff {disk : Disk} {place : Location} :
    disk.openAt place = .ok () ↔ disk.Readable place := by
  unfold openAt Readable
  cases disk.unreadable.lookup place <;> simp

@[simp] theorem lookup_root (disk : Disk) : disk.lookup [] = some .dir := rfl

theorem nameIn?_eq_some_iff {directory place : Location} {name : Name} :
    nameIn? directory place = some name ↔ place = directory ++ [name] := by
  unfold nameIn?
  constructor
  · intro h
    split at h
    · rename_i hdirectory
      obtain ⟨front, rfl⟩ := List.getLast?_eq_some_iff.1 h
      simpa using hdirectory
    · cases h
  · rintro rfl
    simp

theorem mem_names_iff (disk : Disk) (directory : Location) (name : Name) :
    name ∈ disk.names directory ↔ ∃ node, (directory ++ [name], node) ∈ disk.nodes := by
  simp [names, nameIn?_eq_some_iff]

/-- The entries of a directory are what is looked up right inside it. -/
theorem mem_entries_iff (disk : Disk) (directory : Location) (name : Name) (kind : NodeKind) :
    (name, kind) ∈ disk.entries directory ↔ disk.kind? (directory ++ [name]) = some kind := by
  have hnames (h : disk.kind? (directory ++ [name]) = some kind) :
      name ∈ disk.names directory := by
    obtain ⟨node, hnode, -⟩ := Option.map_eq_some_iff.1 h
    rw [lookup, if_neg (by simp), List.lookup_eq_some_iff] at hnode
    obtain ⟨before, after, hnodes, -⟩ := hnode
    exact (disk.mem_names_iff directory name).2 ⟨node, by simp [hnodes]⟩
  unfold entries
  rw [List.mem_mergeSort, List.mem_filterMap]
  constructor
  · rintro ⟨other, -, h⟩
    obtain ⟨found, hfound, hpair⟩ := Option.map_eq_some_iff.1 h
    cases hpair
    exact hfound
  · intro h
    exact ⟨name, hnames h, by simp [h]⟩

/-- Entries come in the order of their names' bytes. -/
theorem pairwise_entries (disk : Disk) (directory : Location) :
    (disk.entries directory).Pairwise fun a b => a.1.bytes ≤ b.1.bytes := by
  unfold entries
  refine List.Pairwise.imp (fun {a b} h => of_decide_eq_true h) (List.pairwise_mergeSort ?_ ?_ _)
  · intro a b c
    simpa using List.le_trans
  · intro a b
    simpa using List.le_total a.1.bytes b.1.bytes

private theorem lookup_map_at (nodes : List (Location × Node)) (place other : Location)
    (new : Node) :
    (nodes.map fun (key, node) => (key, if key = place then new else node)).lookup other =
      if other = place then (nodes.lookup other).map fun _ => new
      else nodes.lookup other := by
  induction nodes with
  | nil => simp
  | cons head tail ih =>
      obtain ⟨key, node⟩ := head
      rw [List.map_cons, List.lookup_cons, List.lookup_cons, ih]
      by_cases hkey : other = key
      · subst hkey
        by_cases hplace : other = place <;> simp [hplace]
      · simp [beq_eq_false_iff_ne.2 hkey]

/-- Only the file that was written to holds something new. -/
theorem lookup_setData (disk : Disk) (place other : Location) (data : Bytes)
    (h : disk.kind? place = some .file) :
    (disk.setData place data).lookup other =
      if other = place then some (.file data) else disk.lookup other := by
  have hne : place ≠ [] := by
    rintro rfl
    simp [kind?, Node.kind] at h
  by_cases hroot : other = []
  · subst hroot
    simp [hne.symm]
  · unfold lookup setData
    simp only [hroot, if_false]
    rw [lookup_map_at]
    by_cases hplace : other = place
    · subst hplace
      simp only [kind?, lookup, hroot, if_false, Option.map_eq_some_iff] at h
      obtain ⟨node, hnode, -⟩ := h
      simp [hnode]
    · simp [hplace]

end Disk

end ExplicitImports
