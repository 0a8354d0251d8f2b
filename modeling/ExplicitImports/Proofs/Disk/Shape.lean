import ExplicitImports.Disk.Access
import Mathlib.Data.List.Sort

/-!
# Disks of one shape

Writing to files changes their data and nothing else.  Two disks have the same
shape when they agree in all but the data of their files, and then no path tells
them apart before it is read:

* `SameShape.resolve_eq` — every path leads to the same location.
* `SameShape.stat_eq`, `SameShape.list_eq` — what it leads to has the same type and,
  if it is a directory, the same entries in the same order; `SameShape.readable_iff` —
  what can be read on one of them can be read on the other.
* `SameShape.write` — a write keeps the shape, whether it is carried through or not.

The order in which a disk keeps its nodes is no part of its shape, for entries are
listed in the order of their names (`entries_eq_of_kind?`).
-/

namespace ExplicitImports

/-- What no write changes about a node: all of it but the data of a file. -/
def Node.outline : Node → Node
  | .file _ => .file []
  | .dir => .dir
  | .link target => .link target
  | .pipe => .pipe

namespace Node

@[simp] theorem kind_outline (node : Node) : node.outline.kind = node.kind := by
  cases node <;> rfl

theorem outline_eq_file_iff {node : Node} :
    node.outline = .file [] ↔ ∃ data, node = .file data := by
  cases node <;> simp [outline]

theorem outline_eq_dir_iff {node : Node} : node.outline = .dir ↔ node = .dir := by
  cases node <;> simp [outline]

theorem outline_eq_link_iff {node : Node} {target : Path} :
    node.outline = .link target ↔ node = .link target := by
  cases node <;> simp [outline]

theorem kind_eq_file_iff {node : Node} : node.kind = .file ↔ ∃ data, node = .file data := by
  cases node <;> simp [kind]

theorem kind_eq_dir_iff {node : Node} : node.kind = .dir ↔ node = .dir := by
  cases node <;> simp [kind]

end Node

namespace Disk

/-- Disks that differ in the data of their files at most, and in the order in which they
keep their nodes. -/
structure SameShape (d e : Disk) : Prop where
  cwd : d.cwd = e.cwd
  openAt_eq : ∀ place, d.openAt place = e.openAt place
  outline : ∀ place, (d.lookup place).map Node.outline = (e.lookup place).map Node.outline

theorem kind?_eq_some_iff {disk : Disk} {place : Location} {kind : NodeKind} :
    disk.kind? place = some kind ↔ ∃ node, disk.lookup place = some node ∧ node.kind = kind := by
  simp [kind?]

theorem kind?_eq_dir_iff {disk : Disk} {place : Location} :
    disk.kind? place = some .dir ↔ disk.lookup place = some .dir := by
  rw [kind?_eq_some_iff]
  constructor
  · intro hkinds
    obtain ⟨node, hnode, hkind⟩ := hkinds
    rwa [← Node.kind_eq_dir_iff.1 hkind]
  · intro h
    exact ⟨.dir, h, rfl⟩

/-- What is found below the root of a disk is one of its nodes. -/
theorem mem_nodes_of_lookup {disk : Disk} {place : Location} {node : Node} (hne : place ≠ [])
    (h : disk.lookup place = some node) : (place, node) ∈ disk.nodes := by
  rw [lookup, if_neg hne, List.lookup_eq_some_iff] at h
  obtain ⟨before, after, hnodes, -⟩ := h
  simp [hnodes]

section Entries

/-- The bytes of names tell them apart. -/
theorem name_ext {a b : Name} (h : a.bytes = b.bytes) : a = b := by
  cases a
  cases b
  cases h
  rfl

theorem nodup_eraseDups {α : Type} [DecidableEq α] : ∀ items : List α, items.eraseDups.Nodup
  | [] => List.nodup_nil
  | item :: rest => by
      have hmem : item ∉ (rest.filter fun other => !other == item).eraseDups := by
        rw [List.mem_eraseDups]
        simp
      rw [List.eraseDups_cons]
      exact List.nodup_cons.2 ⟨hmem, nodup_eraseDups _⟩
termination_by items => items.length
decreasing_by exact Nat.lt_succ_of_le (List.length_filter_le _ _)

/-- No name comes twice among the entries of a directory, and they are in order. -/
theorem pairwise_lt_entries (disk : Disk) (directory : Location) :
    (disk.entries directory).Pairwise fun a b => a.1.bytes < b.1.bytes := by
  have hne : (disk.entries directory).Pairwise fun a b => a.1 ≠ b.1 := by
    unfold entries
    apply ((List.mergeSort_perm _ _).pairwise_iff fun h => h.symm).2
    refine List.Pairwise.filterMap _ ?_ (nodup_eraseDups _)
    intro a b hab x hx y hy
    obtain ⟨-, -, rfl⟩ := Option.map_eq_some_iff.1 hx
    obtain ⟨-, -, rfl⟩ := Option.map_eq_some_iff.1 hy
    exact hab
  refine List.Pairwise.imp₂ ?_ (disk.pairwise_entries directory) hne
  intro a b hle hab
  rcases List.le_iff_lt_or_eq.1 hle with hlt | heq
  · exact hlt
  · exact absurd (name_ext heq) hab

/-- A list in the order of the names is that of a directory's entries if it tells what
stands in the directory. -/
theorem entries_eq_of_mem_iff {disk : Disk} {directory : Location}
    {entries : List (Name × NodeKind)}
    (hsorted : entries.Pairwise fun a b => a.1.bytes < b.1.bytes)
    (h : ∀ name kind, disk.kind? (directory ++ [name]) = some kind ↔ (name, kind) ∈ entries) :
    disk.entries directory = entries := by
  -- Both lists are strictly in order, so they are the same if their members are.
  have hirrefl : Std.Irrefl fun a b : Name × NodeKind => a.1.bytes < b.1.bytes :=
    ⟨fun a => List.lt_irrefl a.1.bytes⟩
  have hantisymm : Std.Antisymm fun a b : Name × NodeKind => a.1.bytes < b.1.bytes :=
    ⟨fun a b hab hba => absurd hba (List.lt_asymm hab)⟩
  apply (disk.pairwise_lt_entries directory).eq_of_mem_iff hsorted
  rintro ⟨name, kind⟩
  rw [mem_entries_iff, h]

/-- The entries of a directory come from the types of what stands in it alone. -/
theorem entries_eq_of_kind? {d e : Disk} (h : ∀ place, d.kind? place = e.kind? place)
    (directory : Location) : d.entries directory = e.entries directory := by
  apply entries_eq_of_mem_iff (e.pairwise_lt_entries directory)
  intro name kind
  rw [mem_entries_iff, h]

end Entries

theorem resolveNode_eq (disk : Disk) (path : Path) :
    disk.resolveNode path = match disk.resolve path with
      | .error cause => .error cause
      | .ok place => match disk.lookup place with
        | none => .error (.os .notFound)
        | some node => .ok (place, node) := by
  unfold resolveNode
  cases disk.resolve path <;> rfl

theorem resolveNode_eq_ok_iff {disk : Disk} {path : Path} {place : Location} {node : Node} :
    disk.resolveNode path = .ok (place, node) ↔
      disk.resolve path = .ok place ∧ disk.lookup place = some node := by
  rw [resolveNode_eq]
  cases hresolve : disk.resolve path with
  | error cause => simp
  | ok found =>
      dsimp only
      cases hlookup : disk.lookup found with
      | none =>
          simp only [reduceCtorEq, Except.ok.injEq, false_iff, not_and]
          rintro rfl
          simp [hlookup]
      | some there =>
          simp only [Except.ok.injEq, Prod.mk.injEq]
          constructor
          · intro hpair
            obtain ⟨rfl, rfl⟩ := hpair
            exact ⟨rfl, hlookup⟩
          · intro hfound
            obtain ⟨rfl, hnode⟩ := hfound
            exact ⟨rfl, Option.some.inj (hlookup.symm.trans hnode)⟩

namespace SameShape

variable {d e f : Disk}

@[refl] theorem refl (d : Disk) : SameShape d d :=
  ⟨rfl, fun _ => rfl, fun _ => rfl⟩

theorem symm (h : SameShape d e) : SameShape e d :=
  ⟨h.cwd.symm, fun place => (h.openAt_eq place).symm, fun place => (h.outline place).symm⟩

theorem trans (h : SameShape d e) (h' : SameShape e f) : SameShape d f :=
  ⟨h.cwd.trans h'.cwd, fun place => (h.openAt_eq place).trans (h'.openAt_eq place),
    fun place => (h.outline place).trans (h'.outline place)⟩

/-- What can be read on one disk can be read on the other. -/
theorem readable_iff (h : SameShape d e) (place : Location) :
    d.Readable place ↔ e.Readable place := by
  rw [← openAt_eq_ok_iff, ← openAt_eq_ok_iff, h.openAt_eq]

theorem kind?_eq (h : SameShape d e) (place : Location) : d.kind? place = e.kind? place := by
  have hkind (disk : Disk) :
      disk.kind? place = ((disk.lookup place).map Node.outline).map Node.kind := by
    rw [Option.map_map]
    unfold kind?
    congr 1
    funext node
    exact node.kind_outline.symm
  rw [hkind, hkind, h.outline]

theorem lookup_eq_dir_iff (h : SameShape d e) (place : Location) :
    d.lookup place = some .dir ↔ e.lookup place = some .dir := by
  rw [← kind?_eq_dir_iff, ← kind?_eq_dir_iff, h.kind?_eq]

/-- What stands at a location of one disk stands there on the other, the data apart. -/
theorem exists_lookup (h : SameShape d e) {place : Location} {node : Node}
    (hnode : d.lookup place = some node) :
    ∃ other, e.lookup place = some other ∧ other.outline = node.outline := by
  have houtline := h.outline place
  rw [hnode, Option.map_some] at houtline
  exact Option.map_eq_some_iff.1 houtline.symm

theorem lookup_eq_none_iff (h : SameShape d e) (place : Location) :
    d.lookup place = none ↔ e.lookup place = none := by
  rw [← Option.map_eq_none_iff (f := Node.outline), h.outline, Option.map_eq_none_iff]

theorem advance_eq (h : SameShape d e)
    (onLink : Location → Path → List Bytes → Except IoError Location) (here : Location)
    (parts : List Bytes) : d.advance onLink here parts = e.advance onLink here parts := by
  induction parts generalizing here with
  | nil => rfl
  | cons part rest ih =>
      simp only [advance, h.lookup_eq_dir_iff, ne_eq, ih]
      -- What is left to compare is the node at the next name, where only a link counts.
      cases Name.ofBytes? part with
      | none => rfl
      | some name =>
          simp only
          cases hd : d.lookup (here ++ [name]) with
          | none => rw [(h.lookup_eq_none_iff _).1 hd]
          | some node =>
              obtain ⟨other, he, houtline⟩ := h.exists_lookup hd
              rw [he]
              cases node with
              | link target =>
                  rw [Node.outline_eq_link_iff.1 houtline]
              | file data =>
                  obtain ⟨data', rfl⟩ := Node.outline_eq_file_iff.1 houtline
                  rfl
              | dir => rw [Node.outline_eq_dir_iff.1 houtline]
              | pipe => cases other <;> first | rfl | cases houtline

theorem follow_eq (h : SameShape d e) (links : Nat) (here : Location) (parts : List Bytes) :
    d.follow links here parts = e.follow links here parts := by
  induction links generalizing here parts with
  | zero => exact h.advance_eq _ here parts
  | succ links ih =>
      unfold follow
      rw [h.advance_eq]
      congr 1
      funext place target rest
      exact ih _ _

/-- Every path leads to the same location on both disks. -/
theorem resolve_eq (h : SameShape d e) (path : Path) : d.resolve path = e.resolve path := by
  unfold resolve start
  rw [h.cwd]
  simp only [h.follow_eq]

/-- Where a path leads on one disk it leads on the other, to the same but for the data. -/
theorem exists_resolveNode (h : SameShape d e) {path : Path} {place : Location} {node : Node}
    (hnode : d.resolveNode path = .ok (place, node)) :
    ∃ other, e.resolveNode path = .ok (place, other) ∧ other.outline = node.outline := by
  obtain ⟨hresolve, hlookup⟩ := resolveNode_eq_ok_iff.1 hnode
  obtain ⟨other, hother, houtline⟩ := h.exists_lookup hlookup
  exact ⟨other, resolveNode_eq_ok_iff.2 ⟨h.resolve_eq path ▸ hresolve, hother⟩, houtline⟩

theorem resolveNode_error (h : SameShape d e) {path : Path} {cause : IoError}
    (herror : d.resolveNode path = .error cause) : e.resolveNode path = .error cause := by
  rw [resolveNode_eq] at herror ⊢
  rw [← h.resolve_eq]
  cases hresolve : d.resolve path with
  | error other =>
      rw [hresolve] at herror
      exact herror
  | ok place =>
      rw [hresolve] at herror
      dsimp only at herror ⊢
      cases hlookup : d.lookup place with
      | none =>
          rw [hlookup] at herror
          rw [(h.lookup_eq_none_iff place).1 hlookup]
          exact herror
      | some node =>
          rw [hlookup] at herror
          cases herror

/-- What a path leads to has the same type on both disks. -/
theorem stat_eq (h : SameShape d e) (path : Path) : d.stat path = e.stat path := by
  unfold stat
  cases hnode : d.resolveNode path with
  | error cause => rw [h.resolveNode_error hnode]
  | ok found =>
      obtain ⟨place, node⟩ := found
      obtain ⟨other, hother, houtline⟩ := h.exists_resolveNode hnode
      have hkind : other.kind = node.kind := by
        rw [← other.kind_outline, houtline, node.kind_outline]
      rw [hother]
      exact congrArg Except.ok hkind.symm

theorem entries_eq (h : SameShape d e) (directory : Location) :
    d.entries directory = e.entries directory :=
  entries_eq_of_kind? h.kind?_eq directory

/-- A directory has the same entries on both disks. -/
theorem list_eq (h : SameShape d e) (path : Path) : d.list path = e.list path := by
  unfold list
  cases hnode : d.resolveNode path with
  | error cause =>
      rw [h.resolveNode_error hnode]
      rfl
  | ok found =>
      obtain ⟨place, node⟩ := found
      obtain ⟨other, hother, houtline⟩ := h.exists_resolveNode hnode
      rw [hother]
      simp only [bind, Except.bind]
      cases node with
      | dir =>
          rw [Node.outline_eq_dir_iff.1 houtline]
          simp only [h.openAt_eq, h.entries_eq]
      | file data =>
          obtain ⟨data', rfl⟩ := Node.outline_eq_file_iff.1 houtline
          rfl
      | link target => rw [Node.outline_eq_link_iff.1 houtline]
      | pipe => cases other <;> first | rfl | cases houtline

/-- A write changes no more than the data of a file. -/
theorem write (disk : Disk) (path : Path) (data : Bytes) :
    SameShape (disk.write path data).2 disk := by
  have hcase := disk.writeCase_write path data
  refine ⟨?_, ?_, ?_⟩
  · generalize disk.write path data = written at hcase ⊢
    cases hcase <;> rfl
  · intro place
    generalize disk.write path data = written at hcase ⊢
    cases hcase <;> rfl
  · intro place
    rcases disk.lookup_write path data place with hsame | ⟨old, new, hold, hnew⟩
    · rw [hsame]
    · rw [hnew, (resolveNode_eq_ok_iff.1 hold).2]
      rfl

end SameShape

end Disk

end ExplicitImports
