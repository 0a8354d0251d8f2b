import ExplicitImports.Proofs.Disk.Below

/-!
# Two paths to one directory

A directory may be named by many paths: with a `.` in them, with more slashes than needed, by
way of `..` or through links.  What is below the directory is found alike on all of them, for
names that are joined to a path lead on from where the path leads.

* `exists_follow_append` — after parts that lead to a location the way goes on from there, with
  the links that they have left.
* `follow_eq_of_le` — a way that does not need more links is the same with more of them.
* `resolve_below_eq` — names lead to the same on two paths to one directory, if no limit is in
  the way.
-/

namespace ExplicitImports

namespace Path

variable (root : Path) (names : List Name)

theorem isAbsolute_below (h : root.bytes ≠ []) :
    (root.below names).isAbsolute = root.isAbsolute := by
  induction names generalizing root with
  | nil => rfl
  | cons name names ih =>
      rw [below_cons, ih _ (root.bytes_ne_nil_join name), root.isAbsolute_join name h]

end Path

namespace Disk

variable {disk : Disk} {place : Location}

section Follow

theorem follow_nil (links : Nat) (here : Location) : disk.follow links here [] = .ok here := by
  cases links <;> rfl

/-- A link puts the parts of its target before the others and uses up one of the links. -/
theorem follow_cons (links : Nat) (here : Location) (part : Bytes) (rest : List Bytes) :
    disk.follow links here (part :: rest) =
      match disk.turn here part, links with
      | .stop cause, _ => .error cause
      | .on next, links => disk.follow links next rest
      | .through _, 0 => .error (.os .tooManyLinks)
      | .through target, links + 1 =>
          disk.follow links (if target.isAbsolute then [] else here) (route target ++ rest) := by
  cases links with
  | zero =>
      rw [follow, advance_cons]
      cases disk.turn here part <;> rfl
  | succ links =>
      rw [follow, advance_cons]
      cases disk.turn here part <;> rfl

/-- After parts that lead somewhere the way goes on from there, with the links that are left. -/
theorem exists_follow_append {links : Nat} {here there : Location} {parts : List Bytes}
    (h : disk.follow links here parts = .ok there) :
    ∃ left ≤ links, ∀ tail,
      disk.follow links here (parts ++ tail) = disk.follow left there tail := by
  -- A link makes the way longer but leaves fewer links, so these come first in the induction.
  induction links using Nat.strong_induction_on generalizing here parts with
  | _ links outer =>
      induction parts generalizing here with
      | nil =>
          rw [follow_nil] at h
          cases h
          exact ⟨links, Nat.le_refl links, fun _ => rfl⟩
      | cons part rest inner =>
          simp only [List.cons_append, follow_cons] at h ⊢
          cases hturn : disk.turn here part with
          | stop cause =>
              rw [hturn] at h
              cases h
          | on next =>
              rw [hturn] at h
              exact inner h
          | through target =>
              rw [hturn] at h
              cases links with
              | zero => cases h
              | succ links =>
                  obtain ⟨left, hleft, htail⟩ := outer links (Nat.lt_succ_self links) h
                  refine ⟨left, Nat.le_succ_of_le hleft, ?_⟩
                  intro tail
                  rw [← htail, List.append_assoc]

/-- Where the links suffice, more of them make no difference. -/
theorem follow_eq_of_le {links more : Nat} {here : Location} {parts : List Bytes}
    (hle : links ≤ more) (h : disk.follow links here parts ≠ .error (.os .tooManyLinks)) :
    disk.follow more here parts = disk.follow links here parts := by
  induction links using Nat.strong_induction_on generalizing more here parts with
  | _ links outer =>
      induction parts generalizing here with
      | nil => rw [follow_nil, follow_nil]
      | cons part rest inner =>
          rw [follow_cons] at h
          rw [follow_cons, follow_cons]
          cases hturn : disk.turn here part with
          | stop cause => rfl
          | on next =>
              rw [hturn] at h
              exact inner h
          | through target =>
              rw [hturn] at h
              cases links with
              | zero =>
                  -- Without links left the way would have ended here.
                  exact absurd rfl h
              | succ links =>
                  obtain ⟨more, rfl⟩ := Nat.exists_eq_add_of_lt (Nat.lt_of_succ_le hle)
                  exact outer links (Nat.lt_succ_self links) (by omega) h

end Follow

section Resolve

variable {root other : Path} {names : List Name}

/-- Names that are joined to a path are followed after its parts. -/
theorem resolve_below_eq_follow (hroot : disk.resolve root = .ok place) (hne : names ≠ [])
    (hlength : (root.below names).bytes.length < pathLimit) :
    disk.resolve (root.below names) =
      disk.follow linkLimit (disk.start root) (root.parts ++ names.map Name.bytes) := by
  obtain ⟨hnul, hbytes, -, -⟩ := resolve_eq_ok_iff.1 hroot
  have hstart : disk.start (root.below names) = disk.start root := by
    unfold start
    rw [root.isAbsolute_below names hbytes]
  obtain ⟨front, name, rfl⟩ := (List.eq_nil_or_concat' names).resolve_left hne
  have hroute : route (root.below (front ++ [name])) =
      root.parts ++ (front ++ [name]).map Name.bytes := by
    rw [← Path.parts_below, Path.below_concat, route, Path.not_endsInSlash_join]
    rfl
  have hbelow : (root.below (front ++ [name])).bytes ≠ [] := by
    rw [Path.below_concat]
    exact Path.bytes_ne_nil_join _ name
  unfold resolve
  rw [if_neg (mt (root.nul_mem_below _).1 hnul), if_neg hbelow, if_neg (Nat.not_le.2 hlength),
    hstart, hroute]

/-- On two paths to one directory the same names lead to the same, if the paths are not too long
and the links on them do not make the difference. -/
theorem resolve_below_eq (hroot : disk.resolve root = .ok place)
    (hother : disk.resolve other = .ok place)
    (hlength : (root.below names).bytes.length < pathLimit)
    (hlength' : (other.below names).bytes.length < pathLimit)
    (hlinks : disk.resolve (root.below names) = .error (.os .tooManyLinks) ↔
      disk.resolve (other.below names) = .error (.os .tooManyLinks)) :
    disk.resolve (root.below names) = disk.resolve (other.below names) := by
  by_cases hne : names = []
  · subst hne
    exact hroot.trans hother.symm
  · by_cases htoo : disk.resolve (root.below names) = .error (.os .tooManyLinks)
    · rw [htoo, hlinks.1 htoo]
    · have htoo' := mt hlinks.2 htoo
      obtain ⟨left, -, hleft⟩ := exists_follow_append (follow_parts_of_resolve hroot)
      obtain ⟨left', -, hleft'⟩ := exists_follow_append (follow_parts_of_resolve hother)
      rw [resolve_below_eq_follow hroot hne hlength, hleft] at htoo ⊢
      rw [resolve_below_eq_follow hother hne hlength', hleft'] at htoo' ⊢
      -- Both ways go on from the directory; one of them has at least as many links left.
      rcases Nat.le_total left left' with hle | hle
      · exact (follow_eq_of_le hle htoo).symm
      · exact follow_eq_of_le hle htoo'

end Resolve

section Congr

variable {path path' : Path} (h : disk.resolve path = disk.resolve path')

include h

theorem resolveNode_congr : disk.resolveNode path = disk.resolveNode path' := by
  rw [resolveNode_eq, resolveNode_eq, h]

theorem stat_congr : disk.stat path = disk.stat path' := by
  unfold stat
  rw [resolveNode_congr h]

theorem readText_eq_of_resolve_eq : disk.readText path = disk.readText path' := by
  unfold readText read
  rw [resolveNode_congr h]

theorem write_congr (data : Bytes) : disk.write path data = disk.write path' data := by
  unfold write
  rw [resolveNode_congr h]

end Congr

end Disk

end ExplicitImports
