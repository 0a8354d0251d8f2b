import ExplicitImports.Proofs.Disk.Shape
import Mathlib.Data.List.Induction

/-!
# Paths below a root

The entries of a walk are told by the names that lead to them from its root, and
`Path.below` is the path they have.  Different names make different paths
(`below_injective`), and as long as the names lead through real directories the
path leads where they say (`resolve_below`, `resolveNode_below`): no link is followed
behind the root, so only the length of the path can be in the way.
-/

namespace ExplicitImports

namespace Path

/-- The path of an entry: the root with the names that lead to it joined to it. -/
def below (root : Path) (names : List Name) : Path :=
  names.foldl (fun path name => path.join name.bytes) root

@[simp] theorem below_nil (root : Path) : root.below [] = root := rfl

theorem below_cons (root : Path) (name : Name) (names : List Name) :
    root.below (name :: names) = (root.join name.bytes).below names := rfl

theorem below_concat (root : Path) (names : List Name) (name : Name) :
    root.below (names ++ [name]) = (root.below names).join name.bytes := by
  simp [below]

section Join

variable (path : Path) (name : Name)

theorem bytes_ne_nil_join : (path.join name.bytes).bytes ≠ [] := by
  unfold join
  split <;> simp [name.valid.1]

theorem not_endsInSlash_join : (path.join name.bytes).endsInSlash = false := by
  have hlast (front : Bytes) : (front ++ name.bytes).getLast? ≠ some slash := by
    intro h
    rw [List.getLast?_append_of_ne_nil _ name.valid.1] at h
    exact name.valid.2.2.1 (List.mem_of_getLast? h)
  unfold join endsInSlash
  split
  · simpa using hlast path.bytes
  · simpa using hlast (path.bytes ++ [slash])

theorem isAbsolute_join (h : path.bytes ≠ []) :
    (path.join name.bytes).isAbsolute = path.isAbsolute := by
  unfold join isAbsolute
  split <;> simp [List.head?_append_of_ne_nil _ h]

theorem nul_mem_join : 0 ∈ (path.join name.bytes).bytes ↔ 0 ∈ path.bytes := by
  have hname : 0 ∉ name.bytes := name.valid.2.2.2.1
  have hslash : (0 : UInt8) ≠ slash := by decide
  unfold join
  split <;> simp [hname, hslash]

/-- Without a slash there is one part only. -/
theorem split_of_notMem {bytes : Bytes} (h : slash ∉ bytes) : split bytes = [bytes] := by
  induction bytes with
  | nil => rfl
  | cons b rest ih =>
      rw [List.mem_cons, not_or] at h
      rw [split, if_neg (Ne.symm h.1), ih h.2]

/-- A name joined to a path is one more part of it. -/
theorem parts_join : (path.join name.bytes).parts = path.parts ++ [name.bytes] := by
  have hname : split name.bytes = [name.bytes] := split_of_notMem name.valid.2.2.1
  have hkeep : [name.bytes].filter (· ≠ []) = [name.bytes] := by simp [name.valid.1]
  unfold join parts
  split
  · rename_i hends
    obtain ⟨front, hfront⟩ : ∃ front, path.bytes = front ++ [slash] :=
      ⟨_, (List.dropLast_append_getLast? _ (by simpa [endsInSlash] using hends)).symm⟩
    rw [hfront, List.append_assoc, List.singleton_append, split_append_slash,
      split_append_slash, hname]
    simp [name.valid.1]
  · rw [split_append_slash, hname, List.filter_append, hkeep]

end Join

section Below

variable (root : Path) (names : List Name)

theorem parts_below : (root.below names).parts = root.parts ++ names.map Name.bytes := by
  induction names generalizing root with
  | nil => simp
  | cons name names ih => rw [below_cons, ih, parts_join]; simp

theorem nul_mem_below : 0 ∈ (root.below names).bytes ↔ 0 ∈ root.bytes := by
  induction names generalizing root with
  | nil => rfl
  | cons name names ih => rw [below_cons, ih, nul_mem_join]

/-- The names that lead to an entry are the last parts of its path. -/
theorem below_injective : Function.Injective root.below := by
  intro a b h
  have hparts := congrArg parts h
  rw [parts_below, parts_below] at hparts
  exact List.map_injective_iff.2 (fun _ _ => Disk.name_ext) (List.append_cancel_left hparts)

end Below

end Path

namespace Disk

/-- What one part of a path does. -/
inductive Turn where
  /-- The way is at its end. -/
  | stop (cause : IoError)
  /-- It goes on from a location. -/
  | on (next : Location)
  /-- It goes on through a link. -/
  | through (target : Path)

/-- What a part does where it is followed. -/
def turn (disk : Disk) (here : Location) (part : Bytes) : Turn :=
  if disk.lookup here ≠ some .dir then .stop (.os .notADirectory)
  else if part = [Path.dot] then .on here
  else if part = [Path.dot, Path.dot] then .on here.dropLast
  else match Name.ofBytes? part with
    | none => .stop (.os .nameTooLong)
    | some name =>
        match disk.lookup (here ++ [name]) with
        | none => .stop (.os .notFound)
        | some (.link target) => .through target
        | some _ => .on (here ++ [name])

variable {disk : Disk} {place there end₁ end₂ : Location} {name : Name} {node : Node}

section Follow

/-- A path is followed part by part. -/
theorem advance_cons (onLink : Location → Path → List Bytes → Except IoError Location)
    (here : Location) (part : Bytes) (rest : List Bytes) :
    disk.advance onLink here (part :: rest) =
      match disk.turn here part with
      | .stop cause => .error cause
      | .on next => disk.advance onLink next rest
      | .through target => onLink here target rest := by
  unfold turn
  rw [advance]
  split_ifs
  · rfl
  · rfl
  · rfl
  · cases Name.ofBytes? part with
    | none => rfl
    | some name =>
        cases hnode : disk.lookup (here ++ [name]) with
        | none => simp only [hnode]
        | some node => cases node <;> simp only [hnode]

variable {tail₁ tail₂ : List Bytes}

/-- Where two ways differ in their last parts only, it is enough to compare these. -/
theorem advance_append_of {onLink : Location → Path → List Bytes → Except IoError Location}
    (htail : ∀ here, disk.advance onLink here tail₁ = .ok end₁ →
      disk.advance onLink here tail₂ = .ok end₂)
    (hlink : ∀ here target rest, onLink here target (rest ++ tail₁) = .ok end₁ →
      onLink here target (rest ++ tail₂) = .ok end₂)
    (parts : List Bytes) (here : Location)
    (h : disk.advance onLink here (parts ++ tail₁) = .ok end₁) :
    disk.advance onLink here (parts ++ tail₂) = .ok end₂ := by
  induction parts generalizing here with
  | nil => exact htail here h
  | cons part rest ih =>
      -- Up to the tails both ways take the same turns.
      rw [List.cons_append, advance_cons] at h ⊢
      cases hturn : disk.turn here part with
      | stop cause =>
          rw [hturn] at h
          cases h
      | on next =>
          rw [hturn] at h
          exact ih next h
      | through target =>
          rw [hturn] at h
          exact hlink here target rest h

theorem follow_append_of
    (htail : ∀ onLink here, disk.advance onLink here tail₁ = .ok end₁ →
      disk.advance onLink here tail₂ = .ok end₂)
    (links : Nat) (parts : List Bytes) (here : Location)
    (h : disk.follow links here (parts ++ tail₁) = .ok end₁) :
    disk.follow links here (parts ++ tail₂) = .ok end₂ := by
  induction links generalizing parts here with
  | zero =>
      refine advance_append_of (htail _) ?_ parts here h
      intro here target rest hlink
      cases hlink
  | succ links ih =>
      refine advance_append_of (htail _) ?_ parts here h
      intro here target rest hlink
      -- A link puts the parts of its target in front; the tail is still the end.
      rw [← List.append_assoc] at hlink ⊢
      exact ih _ _ hlink

/-- A `.` at the end of a path does not lead on. -/
theorem follow_of_follow_concat_dot {links : Nat} {parts : List Bytes} {here : Location}
    (h : disk.follow links here (parts ++ [[Path.dot]]) = .ok there) :
    disk.follow links here parts = .ok there := by
  have htail : ∀ onLink here, disk.advance onLink here [[Path.dot]] = .ok there →
      disk.advance onLink here [] = .ok there := by
    intro onLink here hdot
    rw [advance] at hdot
    split at hdot
    · cases hdot
    · simpa using hdot
  simpa using follow_append_of htail links parts here h

/-- A name that is no link leads from a directory to what has the name there. -/
theorem follow_concat_name {links : Nat} {parts : List Bytes} {here : Location}
    (h : disk.follow links here parts = .ok there) (hthere : disk.lookup there = some .dir)
    (hnode : disk.lookup (there ++ [name]) = some node) (hkind : node.kind ≠ .link) :
    disk.follow links here (parts ++ [name.bytes]) = .ok (there ++ [name]) := by
  have htail : ∀ onLink here, disk.advance onLink here [] = .ok there →
      disk.advance onLink here [name.bytes] = .ok (there ++ [name]) := by
    intro onLink here hnil
    cases hnil
    have hdot : name.bytes ≠ [Path.dot] := name.valid.2.2.2.2.1
    have hdots : name.bytes ≠ [Path.dot, Path.dot] := name.valid.2.2.2.2.2
    cases node with
    | link target => exact absurd rfl hkind
    | file data => simp [advance, hthere, hnode, hdot, hdots]
    | dir => simp [advance, hthere, hnode, hdot, hdots]
    | pipe => simp [advance, hthere, hnode, hdot, hdots]
  exact follow_append_of htail links parts here (by simpa using h)

end Follow

section Resolve

variable {root : Path} {names : List Name}

/-- What makes the system follow a path, and where it then starts. -/
theorem resolve_eq_ok_iff {path : Path} :
    disk.resolve path = .ok place ↔ 0 ∉ path.bytes ∧ path.bytes ≠ [] ∧
      path.bytes.length < pathLimit ∧
      disk.follow linkLimit (disk.start path) (route path) = .ok place := by
  unfold resolve
  split
  · simp_all
  · split
    · simp_all
    · split
      · simp_all
      · simp_all

/-- The parts of a path that leads somewhere lead there too. -/
theorem follow_parts_of_resolve {path : Path} (h : disk.resolve path = .ok place) :
    disk.follow linkLimit (disk.start path) path.parts = .ok place := by
  have hfollow := (resolve_eq_ok_iff.1 h).2.2.2
  unfold route at hfollow
  split at hfollow
  · exact follow_of_follow_concat_dot hfollow
  · exact hfollow

/-- One name more leads from a directory to what has the name there. -/
theorem resolve_join {path : Path} (h : disk.resolve path = .ok place)
    (hplace : disk.lookup place = some .dir)
    (hnode : disk.lookup (place ++ [name]) = some node) (hkind : node.kind ≠ .link)
    (hlength : (path.join name.bytes).bytes.length < pathLimit) :
    disk.resolve (path.join name.bytes) = .ok (place ++ [name]) := by
  obtain ⟨hnul, hne, -, -⟩ := resolve_eq_ok_iff.1 h
  refine resolve_eq_ok_iff.2 ⟨?_, path.bytes_ne_nil_join name, hlength, ?_⟩
  · rwa [Path.nul_mem_join]
  · unfold start route
    rw [path.isAbsolute_join name hne, path.not_endsInSlash_join name, path.parts_join name]
    exact follow_concat_name (follow_parts_of_resolve h) hplace hnode hkind

/-- Names that lead through real directories lead where they say, unless the path is
too long. -/
theorem resolve_below (hroot : disk.resolve root = .ok place)
    (hdirs : ∀ above, above <+: names → disk.lookup (place ++ above) = some .dir)
    (hlength : (root.below names).bytes.length < pathLimit) :
    disk.resolve (root.below names) = .ok (place ++ names) := by
  induction names using List.reverseRecOn with
  | nil => simpa using hroot
  | append_singleton names name ih =>
      rw [Path.below_concat] at hlength ⊢
      have hshorter := (root.below names).length_lt_length_join name.valid.1
      have hnames := ih (fun above h => hdirs above (h.trans (List.prefix_append _ _)))
        (by omega)
      have hplace := hdirs names (List.prefix_append _ _)
      have hnode := hdirs (names ++ [name]) (List.prefix_refl _)
      rw [← List.append_assoc] at hnode ⊢
      exact resolve_join hnames hplace hnode (by simp [Node.kind]) hlength

/-- What the names lead to through real directories is found on its path, if it is no
link. -/
theorem resolveNode_below (hroot : disk.resolve root = .ok place)
    (hdirs : ∀ above, above <+: names → above ≠ names → disk.lookup (place ++ above) = some .dir)
    (hnode : disk.lookup (place ++ names) = some node) (hkind : node.kind ≠ .link)
    (hlength : (root.below names).bytes.length < pathLimit) :
    disk.resolveNode (root.below names) = .ok (place ++ names, node) := by
  refine resolveNode_eq_ok_iff.2 ⟨?_, hnode⟩
  rcases List.eq_nil_or_concat' names with rfl | ⟨front, name, rfl⟩
  · simpa using hroot
  · have hfront : ∀ above, above <+: front → disk.lookup (place ++ above) = some .dir := by
      intro above habove
      apply hdirs above (habove.trans (List.prefix_append _ _))
      rintro rfl
      have hle := habove.length_le
      rw [List.length_append, List.length_singleton] at hle
      omega
    rw [Path.below_concat] at hlength ⊢
    have hshorter := (root.below front).length_lt_length_join name.valid.1
    have hplace := resolve_below hroot hfront (by omega)
    rw [← List.append_assoc] at hnode ⊢
    exact resolve_join hplace (hfront front (List.prefix_refl _)) hnode hkind hlength

/-- What can be listed is a directory that can be read, and what is listed is right
inside it. -/
theorem exists_of_list {path : Path} {entries : List (Name × NodeKind)}
    (h : disk.list path = .ok entries) :
    ∃ place, disk.resolve path = .ok place ∧ disk.lookup place = some .dir ∧
      disk.Readable place ∧ entries = disk.entries place := by
  unfold list at h
  cases hnode : disk.resolveNode path with
  | error cause =>
      rw [hnode] at h
      cases h
  | ok found =>
      obtain ⟨place, node⟩ := found
      obtain ⟨hresolve, hlookup⟩ := resolveNode_eq_ok_iff.1 hnode
      rw [hnode] at h
      cases node with
      | dir =>
          simp only [bind, Except.bind] at h
          cases hopen : disk.openAt place with
          | error cause =>
              rw [hopen] at h
              cases h
          | ok _ =>
              rw [hopen] at h
              cases h
              exact ⟨place, hresolve, hlookup, openAt_eq_ok_iff.1 hopen, rfl⟩
      | file data => cases h
      | link target => cases h
      | pipe => cases h

/-- A path that is too long cannot be listed. -/
theorem list_of_pathLimit_le {path : Path} (hnul : 0 ∉ path.bytes)
    (hlength : pathLimit ≤ path.bytes.length) :
    disk.list path = .error (.os .nameTooLong) := by
  have hne : path.bytes ≠ [] := by
    rintro hnil
    rw [hnil] at hlength
    exact absurd hlength (by decide)
  unfold list resolveNode resolve
  rw [if_neg hnul, if_neg hne, if_pos hlength]
  rfl

theorem stat_of_resolveNode {path : Path} (h : disk.resolveNode path = .ok (place, node)) :
    disk.stat path = .ok node.kind := by
  unfold stat
  rw [h]
  rfl

theorem list_of_resolveNode {path : Path} (h : disk.resolveNode path = .ok (place, .dir))
    (hopen : disk.Readable place) : disk.list path = .ok (disk.entries place) := by
  unfold list
  rw [h]
  simp only [bind, Except.bind, openAt_eq_ok_iff.2 hopen]
  rfl

/-- A directory that the walk comes to, and can list, is listed with what is right
inside it. -/
theorem entries_of_list_below {entries : List (Name × NodeKind)}
    (hroot : disk.resolve root = .ok place)
    (hdirs : ∀ above, above <+: names → disk.lookup (place ++ above) = some .dir)
    (h : disk.list (root.below names) = .ok entries) :
    entries = disk.entries (place ++ names) := by
  obtain ⟨there, hresolve, -, -, rfl⟩ := exists_of_list h
  have hlength := (resolve_eq_ok_iff.1 hresolve).2.2.1
  have hthere := resolve_below hroot hdirs hlength
  rw [hresolve] at hthere
  cases hthere
  rfl

end Resolve

end Disk

end ExplicitImports
