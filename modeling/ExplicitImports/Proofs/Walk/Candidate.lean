import ExplicitImports.Proofs.Walk.Itinerary
import Mathlib.Data.List.Infix

/-!
# Candidates

Which files a run takes up, said without walking: an entry is a `Candidate` when the
names that lead to it from the root lead through real directories, none of them is
ignored, what it stands for is a file or a link that does not lead to something else,
and one of the suffixes selects its name.  What it takes to be one is told entry by
entry here:

* `passesBy_iff`, `leadsToFile_iff` — the tests of a walk mean what they are for.
* `Enters.candidate_concat_iff` — in a directory that is entered, an entry is a candidate
  for what it holds and for its own name.
* `candidate_iff_of_not_dir` — a root that is no directory has no other candidate than
  itself.

Candidates can be decided, so small trees can be tried out.
-/

namespace ExplicitImports

/-- Does some ignore pattern stand for the name? -/
def Settings.Ignores (settings : Settings) (name : Name) : Prop :=
  ∃ text ∈ settings.ignorePatterns, ∃ pattern,
    Glob.Pattern.parse text = .ok pattern ∧ pattern.isMatch name.text = true

/-- The name by which suffixes select an entry: the last one that leads to it, or the
root's own name for the root itself. -/
def Settings.lastName (settings : Settings) (names : List Name) : String :=
  match names.getLast? with
  | some name => name.text
  | none => Utf8.stringLossy settings.root.fileName

/-- What stands at a location is a file, or a link that leads to a file, if it leads
anywhere when it is followed on this path. -/
def Disk.HoldsFile (disk : Disk) (place : Location) (path : Path) : Prop :=
  (∃ data, disk.lookup place = some (.file data)) ∨
    ∃ target, disk.lookup place = some (.link target) ∧
      ∀ there node, disk.resolveNode path = .ok (there, node) → ∃ data, node = .file data

/-- The names lead from the root, which leads to `place`, through real directories to a
real directory, and none of them is ignored. -/
structure Enters (settings : Settings) (disk : Disk) (place : Location) (names : List Name) :
    Prop where
  dirs : ∀ above, above <+: names → disk.lookup (place ++ above) = some .dir
  kept : ∀ name ∈ names, ¬settings.Ignores name

/-- Every directory that is entered can be listed. -/
def Listable (settings : Settings) (disk : Disk) (place : Location) : Prop :=
  ∀ names, Enters settings disk place names →
    ∃ entries, disk.list (settings.root.below names) = .ok entries

/-- Every directory on the way to where the names lead can be listed. -/
def Accessible (settings : Settings) (disk : Disk) (names : List Name) : Prop :=
  ∀ above, above <+: names → above ≠ names →
    ∃ entries, disk.list (settings.root.below above) = .ok entries

/-- The names lead from the root, which leads to `place`, to a file to take up. -/
structure Candidate (settings : Settings) (disk : Disk) (place : Location) (names : List Name) :
    Prop where
  dirs : ∀ above, above <+: names → above ≠ names → disk.lookup (place ++ above) = some .dir
  kept : ∀ name ∈ names, ¬settings.Ignores name
  file : disk.HoldsFile (place ++ names) (settings.root.below names)
  selected : ∃ suffix ∈ settings.suffixes, suffix.toList <:+ (settings.lastName names).toList

section Patterns

theorem parseAll_cons (text : String) (texts : List String) :
    Glob.parseAll (text :: texts) = match Glob.Pattern.parse text with
      | .ok pattern => (Glob.parseAll texts).map (pattern :: ·)
      | .error cause => .error (.pattern text cause) := by
  unfold Glob.parseAll
  rw [List.mapM_cons]
  cases Glob.Pattern.parse text <;> rfl

/-- The patterns are all read if each of them can be. -/
theorem exists_parseAll {texts : List String}
    (h : ∀ text ∈ texts, ∃ pattern, Glob.Pattern.parse text = .ok pattern) :
    ∃ patterns, Glob.parseAll texts = .ok patterns := by
  induction texts with
  | nil => exact ⟨[], rfl⟩
  | cons text texts ih =>
      obtain ⟨pattern, hpattern⟩ := h text (by simp)
      obtain ⟨patterns, hpatterns⟩ := ih fun other hother => h other (by simp [hother])
      refine ⟨pattern :: patterns, ?_⟩
      rw [parseAll_cons, hpattern, hpatterns]
      rfl

/-- They are not if one of them cannot be. -/
theorem exists_parse_of_parseAll {texts : List String} {patterns : List Glob.Pattern}
    (h : Glob.parseAll texts = .ok patterns) :
    ∀ text ∈ texts, ∃ pattern, Glob.Pattern.parse text = .ok pattern := by
  induction texts generalizing patterns with
  | nil => simp
  | cons text texts ih =>
      rw [parseAll_cons] at h
      cases hfirst : Glob.Pattern.parse text with
      | error cause =>
          rw [hfirst] at h
          cases h
      | ok pattern =>
          cases hrest : Glob.parseAll texts with
          | error e =>
              rw [hfirst, hrest] at h
              cases h
          | ok rest =>
              intro other hother
              rcases List.mem_cons.1 hother with rfl | hlater
              · exact ⟨pattern, hfirst⟩
              · exact ih hrest other hlater

/-- The first text that spells no pattern is the error, whatever comes after it. -/
theorem parseAll_of_error {before after : List String} {text : String} {cause : Glob.PatternError}
    (hbefore : ∀ earlier ∈ before, ∃ pattern, Glob.Pattern.parse earlier = .ok pattern)
    (htext : Glob.Pattern.parse text = .error cause) :
    Glob.parseAll (before ++ text :: after) = .error (.pattern text cause) := by
  induction before with
  | nil => rw [List.nil_append, parseAll_cons, htext]
  | cons first rest ih =>
      obtain ⟨pattern, hpattern⟩ := hbefore first (by simp)
      rw [List.cons_append, parseAll_cons, hpattern,
        ih fun earlier hearlier => hbefore earlier (by simp [hearlier])]
      rfl

/-- What is read are the patterns that the texts spell. -/
theorem mem_of_parseAll {texts : List String} {patterns : List Glob.Pattern}
    (h : Glob.parseAll texts = .ok patterns) (pattern : Glob.Pattern) :
    pattern ∈ patterns ↔ ∃ text ∈ texts, Glob.Pattern.parse text = .ok pattern := by
  induction texts generalizing patterns with
  | nil =>
      cases h
      simp
  | cons text texts ih =>
      rw [parseAll_cons] at h
      cases hfirst : Glob.Pattern.parse text with
      | error cause =>
          rw [hfirst] at h
          cases h
      | ok first =>
          rw [hfirst] at h
          cases hrest : Glob.parseAll texts with
          | error e =>
              rw [hrest] at h
              cases h
          | ok rest =>
              rw [hrest] at h
              cases h
              simp [ih hrest, hfirst, eq_comm]

/-- The walk passes by the names that are ignored. -/
theorem Traversal.passesBy_iff {σ : Type} {traversal : Traversal σ}
    (h : Glob.parseAll traversal.settings.ignorePatterns = .ok traversal.ignored) (name : Name) :
    traversal.passesBy name = true ↔ traversal.settings.Ignores name := by
  unfold passesBy Settings.Ignores
  rw [List.any_eq_true]
  constructor
  · intro hpasses
    obtain ⟨pattern, hpattern, hmatch⟩ := hpasses
    obtain ⟨text, htext, hparse⟩ := (mem_of_parseAll h pattern).1 hpattern
    exact ⟨text, htext, pattern, hparse, hmatch⟩
  · intro hignores
    obtain ⟨text, htext, pattern, hparse, hmatch⟩ := hignores
    exact ⟨pattern, (mem_of_parseAll h pattern).2 ⟨text, htext, hparse⟩, hmatch⟩

end Patterns

section Entry

variable {settings : Settings} {disk : Disk} {place : Location} {names above : List Name}
  {name : Name} {kind : NodeKind}

/-- The walk takes up what is a file by its type or by where it leads. -/
theorem Traversal.leadsToFile_iff {path : Path} (hkind : disk.kind? place = some kind) :
    leadsToFile disk path kind = true ↔ disk.HoldsFile place path := by
  obtain ⟨node, hnode, rfl⟩ := Disk.kind?_eq_some_iff.1 hkind
  unfold Disk.HoldsFile
  rw [hnode]
  cases node with
  | file data => simp [leadsToFile, Node.kind]
  | dir => simp [leadsToFile, Node.kind]
  | pipe => simp [leadsToFile, Node.kind]
  | link target =>
      unfold leadsToFile Node.kind Disk.stat
      cases hpath : disk.resolveNode path with
      | error cause => simp [bind, Except.bind]
      | ok found =>
          obtain ⟨there, other⟩ := found
          simp [bind, Except.bind, pure, Except.pure, Node.kind_eq_file_iff]

theorem Settings.lastName_concat (settings : Settings) (above : List Name) (name : Name) :
    settings.lastName (above ++ [name]) = name.text := by
  simp [lastName]

/-- None of the names that lead to an entry is ignored, if its own is not. -/
theorem Settings.kept_concat (habove : ∀ other ∈ above, ¬settings.Ignores other)
    (hname : ¬settings.Ignores name) : ∀ other ∈ above ++ [name], ¬settings.Ignores other := by
  intro other hother
  rcases List.mem_append.1 hother with hbefore | hlast
  · exact habove other hbefore
  · rw [List.mem_singleton.1 hlast]
    exact hname

/-- A name that is not ignored leads from a directory that is entered to another one. -/
theorem Enters.concat (h : Enters settings disk place above) (hname : ¬settings.Ignores name)
    (hdir : disk.lookup (place ++ (above ++ [name])) = some .dir) :
    Enters settings disk place (above ++ [name]) := by
  refine ⟨?_, Settings.kept_concat h.kept hname⟩
  intro names hnames
  rcases List.prefix_concat_iff.1 hnames with rfl | hbefore
  · exact hdir
  · exact h.dirs names hbefore

theorem Accessible.nil : Accessible settings disk [] :=
  fun _ habove hne => absurd (List.prefix_nil.1 habove) hne

theorem Accessible.concat {entries : List (Name × NodeKind)} (h : Accessible settings disk above)
    (hlist : disk.list (settings.root.below above) = .ok entries) (name : Name) :
    Accessible settings disk (above ++ [name]) := by
  intro before hbefore hne
  rcases List.prefix_concat_iff.1 hbefore with heq | hleads
  · exact absurd heq hne
  · by_cases hlast : before = above
    · exact ⟨entries, hlast ▸ hlist⟩
    · exact h before hleads hlast

/-- A candidate is on a way that can be listed, if every directory that is entered can be. -/
theorem Candidate.accessible (h : Candidate settings disk place names)
    (hlist : Listable settings disk place) : Accessible settings disk names := by
  intro above habove hne
  apply hlist
  refine ⟨?_, fun name hname => h.kept name (habove.subset hname)⟩
  intro before hbefore
  apply h.dirs before (hbefore.trans habove)
  rintro rfl
  exact hne (habove.eq_of_length_le hbefore.length_le)

/-- An entry of a directory that is entered is taken up for what it holds and for its
own name. -/
theorem Enters.candidate_concat_iff (h : Enters settings disk place above)
    (hname : ¬settings.Ignores name) :
    Candidate settings disk place (above ++ [name]) ↔
      disk.HoldsFile (place ++ (above ++ [name])) (settings.root.below (above ++ [name])) ∧
        settings.selects name.text = true := by
  have hlast := settings.lastName_concat above name
  rw [Settings.selects_iff]
  constructor
  · intro hcandidate
    refine ⟨hcandidate.file, ?_⟩
    rw [← hlast]
    exact hcandidate.selected
  · intro hboth
    obtain ⟨hfile, hselected⟩ := hboth
    refine ⟨?_, Settings.kept_concat h.kept hname, hfile, by rwa [hlast]⟩
    intro names hnames hne
    rcases List.prefix_concat_iff.1 hnames with rfl | hbefore
    · exact absurd rfl hne
    · exact h.dirs names hbefore

/-- What leads on is a directory, so a candidate behind an entry that is none is the
entry itself. -/
theorem Candidate.eq_of_behind (h : Candidate settings disk place names)
    (hleads : above <+: names) (hdir : disk.lookup (place ++ above) ≠ some .dir) :
    names = above := by
  by_contra hne
  exact hdir (h.dirs above hleads (Ne.symm hne))

theorem Candidate.lookup_ne_dir (h : Candidate settings disk place names) :
    disk.lookup (place ++ names) ≠ some .dir := by
  intro hdir
  rcases h.file with ⟨data, hfile⟩ | ⟨target, hlink, -⟩
  · rw [hdir] at hfile
    cases hfile
  · rw [hdir] at hlink
    cases hlink

/-- There is an entry on the way to a candidate. -/
theorem Candidate.exists_entry (h : Candidate settings disk place names)
    (hleads : above ++ [name] <+: names) :
    ∃ kind, disk.kind? (place ++ (above ++ [name])) = some kind := by
  by_cases heq : above ++ [name] = names
  · rw [heq]
    rcases h.file with ⟨data, hfile⟩ | ⟨target, hlink, -⟩
    · exact ⟨.file, Disk.kind?_eq_some_iff.2 ⟨_, hfile, rfl⟩⟩
    · exact ⟨.link, Disk.kind?_eq_some_iff.2 ⟨_, hlink, rfl⟩⟩
  · exact ⟨.dir, Disk.kind?_eq_dir_iff.2 (h.dirs _ hleads heq)⟩

/-- If the root is no directory then only the root itself can be a candidate, and it is
one if it is a file whose name is selected. -/
theorem candidate_iff_of_not_dir {node : Node} (hroot : disk.resolve settings.root = .ok place)
    (hnode : disk.lookup place = some node) (hdir : node ≠ .dir) :
    Candidate settings disk place names ↔ names = [] ∧ (∃ data, node = .file data) ∧
      settings.selects (Utf8.stringLossy settings.root.fileName) = true := by
  rw [Settings.selects_iff]
  constructor
  · intro h
    have hnames : names = [] := h.eq_of_behind List.nil_prefix (by simpa [hnode] using hdir)
    subst hnames
    refine ⟨rfl, ?_, h.selected⟩
    rcases h.file with ⟨data, hfile⟩ | ⟨target, -, hleads⟩
    · rw [List.append_nil, hnode] at hfile
      exact ⟨data, Option.some.inj hfile⟩
    · exact hleads place node (Disk.resolveNode_eq_ok_iff.2 ⟨hroot, hnode⟩)
  · intro hself
    obtain ⟨rfl, ⟨data, rfl⟩, hselected⟩ := hself
    refine ⟨?_, by simp, .inl ⟨data, by simpa using hnode⟩, hselected⟩
    intro above habove hne
    exact absurd (List.prefix_nil.1 habove) hne

end Entry

section Decidable

variable {settings : Settings} {disk : Disk} {place : Location} {names : List Name} {name : Name}
  {path : Path}

instance : Decidable (settings.Ignores name) :=
  decidable_of_iff ((settings.ignorePatterns.any fun text =>
      match Glob.Pattern.parse text with
      | .ok pattern => pattern.isMatch name.text
      | .error _ => false) = true) <| by
    rw [List.any_eq_true]
    refine exists_congr fun text => and_congr_right fun _ => ?_
    cases Glob.Pattern.parse text <;> simp

instance : Decidable (disk.HoldsFile place path) :=
  decidable_of_iff ((disk.kind? place).any (Traversal.leadsToFile disk path) = true) <| by
    cases hkind : disk.kind? place with
    | none =>
        have hnone : disk.lookup place = none := by simpa [Disk.kind?] using hkind
        simp [Disk.HoldsFile, hnone]
    | some kind => simpa using Traversal.leadsToFile_iff hkind

instance : Decidable (Candidate settings disk place names) :=
  decidable_of_iff
    ((∀ above ∈ names.inits, above ≠ names → disk.lookup (place ++ above) = some .dir) ∧
      (∀ name ∈ names, ¬settings.Ignores name) ∧
      disk.HoldsFile (place ++ names) (settings.root.below names) ∧
      settings.selects (settings.lastName names) = true) <| by
    rw [Settings.selects_iff]
    simp only [List.mem_inits]
    constructor
    · intro hchecks
      obtain ⟨hdirs, hkept, hfile, hselected⟩ := hchecks
      exact ⟨hdirs, hkept, hfile, hselected⟩
    · intro h
      exact ⟨h.dirs, h.kept, h.file, h.selected⟩

end Decidable

end ExplicitImports
