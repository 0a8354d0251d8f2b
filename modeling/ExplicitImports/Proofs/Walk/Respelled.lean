import ExplicitImports.Proofs.Disk.Respelled
import ExplicitImports.Proofs.Walk.Scanned

/-!
# One walk from two roots

A walk is told by the names that lead from its root.  Two roots that are paths to one directory
are walked alike, as long as neither stands for the standard input and the limits that the system
sets to paths do not tell them apart.

* `Disk.WithinLimits` — no path below the directory is too long on either way.
* `itinerary_eq_of_withinLimits` — walks from both roots have one itinerary.
* `resolve_eq_of_scan_mem` — a file of it is the same file under both roots.
-/

namespace ExplicitImports

namespace Disk

/-- Does the path lead through more links than the system follows? -/
def tooManyLinks (disk : Disk) (path : Path) : Bool :=
  match disk.resolve path with
  | .error (.os .tooManyLinks) => true
  | _ => false

theorem tooManyLinks_iff {disk : Disk} {path : Path} :
    disk.tooManyLinks path = true ↔ disk.resolve path = .error (.os .tooManyLinks) := by
  unfold tooManyLinks
  split
  · rename_i h
    simp [h]
  · rename_i h
    simpa using h

/-- Below the directory at this place no path is too long, whichever of the two paths it starts
with, and none leads through too many links for having started with the one and not with the
other. -/
structure WithinLimits (disk : Disk) (place : Location) (root other : Path) : Prop where
  short : ∀ names node, disk.lookup (place ++ names) = some node →
    (root.below names).bytes.length < pathLimit ∧ (other.below names).bytes.length < pathLimit
  links : ∀ names node, disk.lookup (place ++ names) = some node →
    disk.tooManyLinks (root.below names) = disk.tooManyLinks (other.below names)

/-- It is enough to look at the nodes of the disk. -/
theorem withinLimits_of_nodes {disk : Disk} {place : Location} {root other : Path}
    (hne : place ≠ [])
    (hshort : ∀ entry ∈ disk.nodes,
      (root.below (entry.1.drop place.length)).bytes.length < pathLimit ∧
        (other.below (entry.1.drop place.length)).bytes.length < pathLimit)
    (hlinks : ∀ entry ∈ disk.nodes, disk.tooManyLinks (root.below (entry.1.drop place.length)) =
      disk.tooManyLinks (other.below (entry.1.drop place.length))) :
    disk.WithinLimits place root other := by
  constructor
  · intro names node hnode
    have hmem := mem_nodes_of_lookup (List.append_ne_nil_of_left_ne_nil hne names) hnode
    simpa only [List.drop_left] using hshort _ hmem
  · intro names node hnode
    have hmem := mem_nodes_of_lookup (List.append_ne_nil_of_left_ne_nil hne names) hnode
    simpa only [List.drop_left] using hlinks _ hmem

namespace WithinLimits

variable {disk : Disk} {place : Location} {root other : Path} {names : List Name}
  (h : disk.WithinLimits place root other)

include h

theorem symm : disk.WithinLimits place other root :=
  ⟨fun names node hnode => (h.short names node hnode).symm,
    fun names node hnode => (h.links names node hnode).symm⟩

variable (hroot : disk.resolve root = .ok place)

include hroot

/-- A directory below it can be listed if it can be read. -/
theorem exists_list_iff
    (hdirs : ∀ above, above <+: names → disk.lookup (place ++ above) = some .dir) :
    (∃ entries, disk.list (root.below names) = .ok entries) ↔ disk.Readable (place ++ names) := by
  have hdir := hdirs names (List.prefix_refl names)
  have hplace := resolve_below hroot hdirs (h.short names _ hdir).1
  constructor
  · rintro ⟨entries, hlist⟩
    obtain ⟨there, hthere, -, hopen, -⟩ := exists_of_list hlist
    rw [hplace] at hthere
    cases hthere
    exact hopen
  · intro hopen
    exact ⟨_, list_of_resolveNode (resolveNode_eq_ok_iff.2 ⟨hplace, hdir⟩) hopen⟩

/-- What is below the directory is found alike on both paths. -/
theorem resolve_eq (hother : disk.resolve other = .ok place) {node : Node}
    (hnode : disk.lookup (place ++ names) = some node) :
    disk.resolve (root.below names) = disk.resolve (other.below names) := by
  obtain ⟨hlength, hlength'⟩ := h.short names node hnode
  apply resolve_below_eq hroot hother hlength hlength'
  rw [← tooManyLinks_iff, ← tooManyLinks_iff, h.links names node hnode]

/-- A directory that the walk comes to is listed alike on both paths. -/
theorem list_eq (hother : disk.resolve other = .ok place)
    (hdir : disk.lookup (place ++ names) = some .dir) :
    disk.list (root.below names) = disk.list (other.below names) := by
  unfold list
  rw [resolveNode_congr (h.resolve_eq hroot hother hdir)]

end WithinLimits

end Disk

namespace Traversal

variable {σ τ : Type} {first : Traversal σ} {second : Traversal τ} {disk : Disk}
  {place : Location}

section Itinerary

variable (hsuffixes : first.settings.suffixes = second.settings.suffixes)
  (hignored : first.ignored = second.ignored)
  (hroot : disk.resolve first.settings.root = .ok place)
  (hother : disk.resolve second.settings.root = .ok place)
  (hlimits : disk.WithinLimits place first.settings.root second.settings.root)

include hsuffixes hignored hroot hother hlimits

theorem visits_eq_of_withinLimits (levels : Nat) (names : List Name)
    (hdirs : ∀ above, above <+: names → disk.lookup (place ++ above) = some .dir) :
    first.visits disk levels names = second.visits disk levels names := by
  induction levels generalizing names with
  | zero => rfl
  | succ levels ih =>
      have hsame := hlimits.list_eq hroot hother (hdirs names (List.prefix_refl names))
      unfold visits
      rw [← hsame]
      cases hlist : disk.list (first.settings.root.below names) with
      | error cause => rfl
      | ok entries =>
          apply List.flatMap_congr
          rintro ⟨name, kind⟩ hentry
          rw [Disk.entries_of_list_below hroot hdirs hlist, disk.mem_entries_iff] at hentry
          obtain ⟨node, hnode, rfl⟩ := Disk.kind?_eq_some_iff.1 hentry
          rw [List.append_assoc] at hnode
          unfold entryVisits passesBy Settings.selects
          rw [hignored, hsuffixes]
          dsimp only
          by_cases hkind : node.kind = .dir
          · -- The walk goes on in a directory.
            have hinside : first.visits disk levels (names ++ [name]) =
                second.visits disk levels (names ++ [name]) := by
              apply ih
              intro above habove
              rcases List.prefix_concat_iff.1 habove with rfl | hbefore
              · rw [hnode, Node.kind_eq_dir_iff.1 hkind]
              · exact hdirs above hbefore
            rw [if_pos hkind, if_pos hkind, hinside]
          · have hleads : leadsToFile disk (first.settings.root.below (names ++ [name])) node.kind =
                leadsToFile disk (second.settings.root.below (names ++ [name])) node.kind := by
              unfold leadsToFile
              rw [Disk.stat_congr (hlimits.resolve_eq hroot hother hnode)]
            rw [if_neg hkind, if_neg hkind, hleads]

/-- Walks from both roots have one itinerary. -/
theorem itinerary_eq_of_withinLimits (hplace : disk.lookup place = some .dir)
    (hinput : first.settings.root.isStandardInput = false)
    (hinput' : second.settings.root.isStandardInput = false) :
    first.itinerary disk .dir = second.itinerary disk .dir := by
  unfold itinerary
  simp only [hinput, hinput', Bool.false_eq_true, if_false]
  apply visits_eq_of_withinLimits hsuffixes hignored hroot hother hlimits
  intro above habove
  rw [List.prefix_nil.1 habove, List.append_nil, hplace]

end Itinerary

section Files

variable (hignored : Glob.parseAll first.settings.ignorePatterns = .ok first.ignored) {other : Path}
  (hroot : disk.resolve first.settings.root = .ok place)
  (hlimits : disk.WithinLimits place first.settings.root other)
  (hplace : disk.lookup place = some .dir)
  (hinput : first.settings.root.isStandardInput = false) {names : List Name}

include hignored hroot hlimits hplace hinput

/-- The files of the itinerary are the candidates that are reached through directories that can be
read. -/
theorem scan_mem_itinerary_iff_of_withinLimits :
    .scan names ∈ first.itinerary disk .dir ↔ Candidate first.settings disk place names ∧
      ∀ above, above <+: names → above ≠ names → disk.Readable (place ++ above) := by
  refine (scan_mem_itinerary_iff hignored hroot hplace hinput names).trans
    (and_congr_right fun hcandidate => ?_)
  refine forall₃_congr fun above habove hne => ?_
  apply hlimits.exists_list_iff hroot
  intro before hbefore
  apply hcandidate.dirs before (hbefore.trans habove)
  rintro rfl
  exact hne (habove.eq_of_length_le hbefore.length_le)

/-- A file of the itinerary is found alike under both roots. -/
theorem resolve_eq_of_scan_mem (hother : disk.resolve other = .ok place)
    (h : .scan names ∈ first.itinerary disk .dir) :
    disk.resolve (first.settings.root.below names) = disk.resolve (other.below names) := by
  obtain ⟨hcandidate, -⟩ :=
    (scan_mem_itinerary_iff_of_withinLimits hignored hroot hlimits hplace hinput).1 h
  rcases hcandidate.file with ⟨data, hfile⟩ | ⟨target, hlink, -⟩
  · exact hlimits.resolve_eq hroot hother hfile
  · exact hlimits.resolve_eq hroot hother hlink

end Files

end Traversal

end ExplicitImports
