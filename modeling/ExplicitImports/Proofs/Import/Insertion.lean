import ExplicitImports.Proofs.Import.Position

/-!
# Completion as insertion

What completion does to a text is told here without a scan, from the positions
at which imports stand:

* `DueAt` — an import that lacks the extension and is not excluded.
* `insertBefore` — a text with something put before the characters at certain
  positions, and nothing else changed.
* `completeImports_eq_insertBefore` — completion puts the extension before the
  closing quote of every import that is due, counts the imports that are due, and
  its scan stops at every import.
-/

namespace ExplicitImports

open Segment

/-- The import at this position is to get the extension: its path does not end with
it, and starts with no excluded prefix. -/
structure DueAt (settings : Settings) (content : List Char) (position : Nat)
    (path : List Char) : Prop where
  imported : ImportAt content position path
  lacksExtension : ¬ settings.extension.toList <:+ path
  notExcluded : ∀ start ∈ settings.excludedPrefixes, ¬ start.toList <+: path

/-- At this position begins an import that is due. -/
def BeginsDue (settings : Settings) (content : List Char) (position : Nat) : Prop :=
  ∃ path, DueAt settings content position path

/-- At this position stands the closing quote of an import that is due. -/
def ClosesDue (settings : Settings) (content : List Char) (position : Nat) : Prop :=
  ∃ start path, DueAt settings content start path ∧
    position = start + opening.length + path.length

theorem Settings.completes_iff (settings : Settings) (path : List Char) :
    settings.completes path = true ↔
      ¬ settings.extension.toList <:+ path ∧
        ∀ start ∈ settings.excludedPrefixes, ¬ start.toList <+: path := by
  simp [Settings.completes, Settings.excludes, ← Bool.not_eq_true, List.isSuffixOf_iff_suffix]

theorem dueAt_iff {settings : Settings} {content path : List Char} {position : Nat} :
    DueAt settings content position path ↔
      ImportAt content position path ∧ settings.completes path = true := by
  rw [Settings.completes_iff]
  constructor
  · rintro ⟨himported, hlacks, hexcluded⟩
    exact ⟨himported, hlacks, hexcluded⟩
  · rintro ⟨himported, hlacks, hexcluded⟩
    exact ⟨himported, hlacks, hexcluded⟩

instance (settings : Settings) (content : List Char) :
    DecidablePred (BeginsDue settings content) := fun position =>
  decidable_of_iff
    ((importAt? (content.drop position)).any (fun found => settings.completes found.1) = true) <| by
    simp only [BeginsDue, dueAt_iff, importAt_iff, Option.any_eq_true, Prod.exists]
    constructor
    · rintro ⟨path, after, hat, hcompletes⟩
      exact ⟨path, ⟨after, hat⟩, hcompletes⟩
    · rintro ⟨path, ⟨after, hat⟩, hcompletes⟩
      exact ⟨path, after, hat, hcompletes⟩

instance (settings : Settings) (content : List Char) :
    DecidablePred (ClosesDue settings content) := fun position =>
  decidable_of_iff
    (∃ start ∈ List.range position,
      (importAt? (content.drop start)).any (fun found => settings.completes found.1 &&
        position = start + opening.length + found.1.length) = true) <| by
    simp only [ClosesDue, dueAt_iff, importAt_iff, Option.any_eq_true, Prod.exists,
      List.mem_range, Bool.and_eq_true, decide_eq_true_eq]
    constructor
    · rintro ⟨start, -, path, after, hat, hcompletes, hposition⟩
      exact ⟨start, path, ⟨⟨after, hat⟩, hcompletes⟩, hposition⟩
    · rintro ⟨start, path, ⟨⟨after, hat⟩, hcompletes⟩, rfl⟩
      refine ⟨start, ?_, path, after, hat, hcompletes, rfl⟩
      have hopening : opening.length = 6 := rfl
      omega

/-- A text with something inserted before the characters at certain positions. -/
def insertBefore (due : Nat → Prop) [DecidablePred due] (inserted content : List Char) :
    List Char :=
  content.zipIdx.flatMap fun (c, position) => if due position then inserted ++ [c] else [c]

section Insert

variable (due other : Nat → Prop) [DecidablePred due] [DecidablePred other]
variable (inserted : List Char)

theorem insertBefore_append (front back : List Char) :
    insertBefore due inserted (front ++ back) =
      insertBefore due inserted front ++
        insertBefore (fun k => due (front.length + k)) inserted back := by
  unfold insertBefore
  rw [List.zipIdx_append, List.flatMap_append, Nat.zero_add,
    List.zipIdx_eq_map_add (i := front.length), List.flatMap_map]

theorem insertBefore_cons (c : Char) (rest : List Char) :
    insertBefore due inserted (c :: rest) =
      (if due 0 then inserted ++ [c] else [c]) ++
        insertBefore (fun k => due (1 + k)) inserted rest := by
  have := insertBefore_append due inserted [c] rest
  simpa [insertBefore] using this

variable {due other}

/-- Only the positions inside the text matter. -/
theorem insertBefore_congr {content : List Char}
    (h : ∀ k < content.length, due k ↔ other k) :
    insertBefore due inserted content = insertBefore other inserted content := by
  unfold insertBefore
  rw [List.flatMap_def, List.flatMap_def]
  refine congrArg List.flatten (List.map_congr_left ?_)
  rintro ⟨c, k⟩ hmem
  have hk : k < content.length := by
    simpa using List.snd_lt_of_mem_zipIdx hmem
  simp only [h k hk]

theorem insertBefore_of_none {content : List Char} (h : ∀ k < content.length, ¬ due k) :
    insertBefore due inserted content = content := by
  calc
    insertBefore due inserted content = insertBefore (fun _ => False) inserted content :=
      insertBefore_congr inserted fun k hk => iff_of_false (h k hk) id
    _ = content.zipIdx.map Prod.fst := by simp [insertBefore, List.map_eq_flatMap]
    _ = content := List.zipIdx_map_fst 0 content

/-- Where one position is due at most, all else stays as it is. -/
theorem insertBefore_one {front back : List Char} {c : Char} {p : Bool}
    (h : ∀ k < (front ++ c :: back).length, due k ↔ k = front.length ∧ p = true) :
    insertBefore due inserted (front ++ c :: back) =
      front ++ (if p then inserted else []) ++ c :: back := by
  have hfront : insertBefore due inserted front = front := by
    refine insertBefore_of_none inserted fun k hk hdue => ?_
    have := ((h k (by simp only [List.length_append]; omega)).1 hdue).1
    omega
  have hback : insertBefore (fun k => due (front.length + ([c].length + k))) inserted back =
      back := by
    refine insertBefore_of_none inserted fun k hk hdue => ?_
    have := ((h _ (by simp only [List.length_append, List.length_cons, List.length_nil]; omega)).1
      hdue).1
    simp only [List.length_cons, List.length_nil] at this
    omega
  have hhere := h front.length (by simp)
  rw [insertBefore_append, ← List.singleton_append, insertBefore_append, hfront, hback]
  cases p with
  | false =>
      have : ¬ due front.length := fun hdue => by simpa using (hhere.1 hdue).2
      simp [insertBefore, this]
  | true =>
      have : due front.length := hhere.2 ⟨rfl, rfl⟩
      simp [insertBefore, this]

end Insert

/-- The imports that are due behind a character that begins no import. -/
theorem dueAt_cons_iff {settings : Settings} {c : Char} {rest path : List Char} {position : Nat}
    (h : importAt? (c :: rest) = none) :
    DueAt settings (c :: rest) position path ↔
      ∃ k, position = 1 + k ∧ DueAt settings rest k path := by
  simp only [dueAt_iff, importAt_cons_iff h]
  constructor
  · intro hboth
    obtain ⟨⟨k, hk, hat⟩, hcompletes⟩ := hboth
    exact ⟨k, hk, hat, hcompletes⟩
  · intro hboth
    obtain ⟨k, hk, hat, hcompletes⟩ := hboth
    exact ⟨⟨k, hk, hat⟩, hcompletes⟩

/-- The imports that are due in a text that starts with an import. -/
theorem dueAt_append_iff {settings : Settings} {text path after other : List Char}
    {position : Nat} (h : importAt? text = some (path, after)) :
    DueAt settings text position other ↔
      (position = 0 ∧ other = path ∧ settings.completes path = true) ∨
        ∃ k, position = (Segment.imported path).text.length + k ∧
          DueAt settings after k other := by
  simp only [dueAt_iff, importAt_append_iff h]
  constructor
  · intro hboth
    rcases hboth with ⟨⟨rfl, rfl⟩ | ⟨k, hk, hat⟩, hcompletes⟩
    · exact .inl ⟨rfl, rfl, hcompletes⟩
    · exact .inr ⟨k, hk, hat, hcompletes⟩
  · intro hcases
    rcases hcases with ⟨rfl, rfl, hcompletes⟩ | ⟨k, hk, hat, hcompletes⟩
    · exact ⟨.inl ⟨rfl, rfl⟩, hcompletes⟩
    · exact ⟨.inr ⟨k, hk, hat⟩, hcompletes⟩

theorem closesDue_cons_iff {settings : Settings} {c : Char} {rest : List Char} {position : Nat}
    (h : importAt? (c :: rest) = none) :
    ClosesDue settings (c :: rest) position ↔
      ∃ k, position = 1 + k ∧ ClosesDue settings rest k := by
  simp only [ClosesDue, dueAt_cons_iff h]
  constructor
  · intro hcloses
    obtain ⟨_, path, ⟨start, rfl, hdue⟩, hposition⟩ := hcloses
    exact ⟨start + opening.length + path.length, by omega, start, path, hdue, rfl⟩
  · intro hcloses
    obtain ⟨_, rfl, start, path, hdue, rfl⟩ := hcloses
    exact ⟨1 + start, path, ⟨start, rfl, hdue⟩, by omega⟩

theorem closesDue_append_iff {settings : Settings} {text path after : List Char}
    {position : Nat} (h : importAt? text = some (path, after)) :
    ClosesDue settings text position ↔
      (position = opening.length + path.length ∧ settings.completes path = true) ∨
        ∃ k, position = (Segment.imported path).text.length + k ∧
          ClosesDue settings after k := by
  simp only [ClosesDue, dueAt_append_iff h]
  constructor
  · intro hcloses
    rcases hcloses with ⟨_, _, ⟨rfl, rfl, hcompletes⟩ | ⟨start, rfl, hdue⟩, rfl⟩
    · exact .inl ⟨by omega, hcompletes⟩
    · exact .inr ⟨_, by omega, start, _, hdue, rfl⟩
  · intro hcases
    rcases hcases with ⟨rfl, hcompletes⟩ | ⟨_, rfl, start, path', hdue, rfl⟩
    · exact ⟨0, path, .inl ⟨rfl, rfl, hcompletes⟩, by omega⟩
    · exact ⟨_, path', .inr ⟨start, rfl, hdue⟩, by omega⟩

theorem closesDue_one_add {settings : Settings} {c : Char} {rest : List Char}
    (h : importAt? (c :: rest) = none) (k : Nat) :
    ClosesDue settings (c :: rest) (1 + k) ↔ ClosesDue settings rest k := by
  rw [closesDue_cons_iff h]
  simp

theorem closesDue_length_add {settings : Settings} {text path after : List Char}
    (h : importAt? text = some (path, after)) (k : Nat) :
    ClosesDue settings text ((Segment.imported path).text.length + k) ↔
      ClosesDue settings after k := by
  rw [closesDue_append_iff h, or_iff_right]
  · simp
  · intro hfirst
    obtain ⟨hinside, -⟩ := hfirst
    have hclosing : closing.length = 2 := rfl
    rw [length_text_imported] at hinside
    omega

/-- Inside the import that a text starts with only its closing quote can be due. -/
theorem insertBefore_imported {settings : Settings} {text path after : List Char}
    (h : importAt? text = some (path, after)) :
    insertBefore (ClosesDue settings text) settings.extension.toList
        (Segment.imported path).text =
      ((Segment.imported path).complete settings).text := by
  have hquote : (Segment.imported path).text = (opening ++ path) ++ '\'' :: [';'] := by
    simp [Segment.text, closing]
  have hlength : (opening ++ path).length = opening.length + path.length := List.length_append
  rw [hquote, insertBefore_one settings.extension.toList (p := settings.completes path)]
  · cases hcompletes : settings.completes path <;>
      simp [Segment.complete, Segment.text, closing, hcompletes]
  · intro k hk
    rw [← hquote] at hk
    rw [closesDue_append_iff h, hlength]
    apply or_iff_left
    intro hlater
    obtain ⟨j, rfl, -⟩ := hlater
    omega

/-- The pieces of a completed text, from the left, are the text with the extension
inserted at the quotes that are due. -/
theorem flatMap_complete_ofText (settings : Settings) (content : List Char) :
    ((ofText content).flatMap fun segment => (segment.complete settings).text) =
      insertBefore (ClosesDue settings content) settings.extension.toList content := by
  fun_induction ofText content with
  | case1 => rfl
  | case2 c rest path after h ih =>
      have hafter : insertBefore (ClosesDue settings after) settings.extension.toList after =
          insertBefore (fun k => ClosesDue settings (c :: rest)
            ((Segment.imported path).text.length + k)) settings.extension.toList after :=
        insertBefore_congr _ fun k _ => (closesDue_length_add h k).symm
      rw [List.flatMap_cons, ih, hafter, ← insertBefore_imported h, ← insertBefore_append,
        ← eq_of_importAt? h]
  | case3 c rest h ih =>
      -- A quote that is due stands behind an opening, so never at the start.
      have hnone : ¬ ClosesDue settings (c :: rest) 0 := by
        intro hdue
        obtain ⟨k, hk, -⟩ := (closesDue_cons_iff h).1 hdue
        omega
      have hrest : insertBefore (ClosesDue settings rest) settings.extension.toList rest =
          insertBefore (fun k => ClosesDue settings (c :: rest) (1 + k))
            settings.extension.toList rest :=
        insertBefore_congr _ fun k _ => (closesDue_one_add h k).symm
      rw [List.flatMap_cons, ih, hrest, insertBefore_cons, if_neg hnone]
      rfl

theorem beginsDue_cons_iff {settings : Settings} {c : Char} {rest : List Char} {position : Nat}
    (h : importAt? (c :: rest) = none) :
    BeginsDue settings (c :: rest) position ↔
      ∃ k, position = 1 + k ∧ BeginsDue settings rest k := by
  simp only [BeginsDue, dueAt_cons_iff h]
  constructor
  · intro hbegins
    obtain ⟨path, k, rfl, hdue⟩ := hbegins
    exact ⟨k, rfl, path, hdue⟩
  · intro hbegins
    obtain ⟨k, rfl, path, hdue⟩ := hbegins
    exact ⟨path, k, rfl, hdue⟩

theorem beginsDue_append_iff {settings : Settings} {text path after : List Char}
    {position : Nat} (h : importAt? text = some (path, after)) :
    BeginsDue settings text position ↔
      (position = 0 ∧ settings.completes path = true) ∨
        ∃ k, position = (Segment.imported path).text.length + k ∧
          BeginsDue settings after k := by
  simp only [BeginsDue, dueAt_append_iff h]
  constructor
  · intro hbegins
    rcases hbegins with ⟨other, ⟨rfl, -, hcompletes⟩ | ⟨k, rfl, hdue⟩⟩
    · exact .inl ⟨rfl, hcompletes⟩
    · exact .inr ⟨k, rfl, other, hdue⟩
  · intro hcases
    rcases hcases with ⟨rfl, hcompletes⟩ | ⟨k, rfl, other, hdue⟩
    · exact ⟨path, .inl ⟨rfl, rfl, hcompletes⟩⟩
    · exact ⟨other, .inr ⟨k, rfl, hdue⟩⟩

theorem beginsDue_one_add {settings : Settings} {c : Char} {rest : List Char}
    (h : importAt? (c :: rest) = none) (k : Nat) :
    BeginsDue settings (c :: rest) (1 + k) ↔ BeginsDue settings rest k := by
  rw [beginsDue_cons_iff h]
  simp

theorem beginsDue_length_add {settings : Settings} {text path after : List Char}
    (h : importAt? text = some (path, after)) (k : Nat) :
    BeginsDue settings text ((Segment.imported path).text.length + k) ↔
      BeginsDue settings after k := by
  rw [beginsDue_append_iff h, or_iff_right]
  · simp
  · intro hfirst
    obtain ⟨hinside, -⟩ := hfirst
    have hclosing : closing.length = 2 := rfl
    rw [length_text_imported] at hinside
    omega

theorem countP_range_add (p : Nat → Bool) (n m : Nat) :
    (List.range (n + m)).countP p =
      (List.range n).countP p + (List.range m).countP fun k => p (n + k) := by
  rw [List.range_add, List.countP_append, List.countP_map]
  rfl

/-- Of the positions inside an import only the first can be one at which one is due. -/
theorem countP_range_imported {settings : Settings} {text path after : List Char}
    (h : importAt? text = some (path, after)) :
    (List.range (Segment.imported path).text.length).countP (BeginsDue settings text ·) =
      if settings.completes path then 1 else 0 := by
  have hlength : (Segment.imported path).text.length = 1 + (7 + path.length) := by
    have hopening : opening.length = 6 := rfl
    have hclosing : closing.length = 2 := rfl
    rw [length_text_imported]
    omega
  have hfirst : BeginsDue settings text 0 ↔ settings.completes path = true := by
    rw [beginsDue_append_iff h]
    constructor
    · intro hcases
      rcases hcases with ⟨-, hcompletes⟩ | ⟨k, hk, -⟩
      · exact hcompletes
      · omega
    · intro hcompletes
      exact .inl ⟨rfl, hcompletes⟩
  have hothers :
      (List.range (7 + path.length)).countP (fun k => BeginsDue settings text (1 + k)) = 0 := by
    rw [List.countP_eq_zero]
    intro k hk
    rw [List.mem_range] at hk
    rw [decide_eq_true_eq, beginsDue_append_iff h]
    intro hcases
    rcases hcases with ⟨hzero, -⟩ | ⟨j, hj, -⟩
    · omega
    · omega
  rw [hlength, countP_range_add, hothers]
  simp [hfirst]

/-- Imports are completed as many as there are positions at which one is due. -/
theorem countP_isCompleted_ofText (settings : Settings) (content : List Char) :
    (ofText content).countP (Segment.isCompleted settings) =
      (List.range content.length).countP (BeginsDue settings content ·) := by
  fun_induction ofText content with
  | case1 => rfl
  | case2 c rest path after h ih =>
      have hlength : (c :: rest).length = (Segment.imported path).text.length + after.length := by
        rw [eq_of_importAt? h, List.length_append]
      have hafter : (List.range after.length).countP (fun k => BeginsDue settings (c :: rest)
          ((Segment.imported path).text.length + k)) =
          (List.range after.length).countP (BeginsDue settings after ·) := by
        refine List.countP_congr fun k _ => ?_
        rw [decide_eq_true_eq, decide_eq_true_eq, beginsDue_length_add h]
      rw [hlength, countP_range_add, countP_range_imported h, hafter, List.countP_cons, ih,
        Nat.add_comm]
      rfl
  | case3 c rest h ih =>
      have hrest : (List.range rest.length).countP
          (fun k => BeginsDue settings (c :: rest) (1 + k)) =
          (List.range rest.length).countP (BeginsDue settings rest ·) := by
        refine List.countP_congr fun k _ => ?_
        rw [decide_eq_true_eq, decide_eq_true_eq, beginsDue_one_add h]
      have hfirst : ¬ BeginsDue settings (c :: rest) 0 := by
        intro hdue
        obtain ⟨k, hk, -⟩ := (beginsDue_cons_iff h).1 hdue
        omega
      rw [List.countP_cons, ih, List.length_cons, Nat.add_comm rest.length, countP_range_add, hrest]
      simp [hfirst, Segment.isCompleted]

/-- Completion does what the imports of the text prescribe, wherever they stand.  Its
result is the text with the extension put before the closing quote of every import that
is due, and it counts these imports; the scan from the left stops at every import. -/
theorem completeImports_eq_insertBefore (settings : Settings) (content : List Char) :
    (completeImports settings content).text =
        insertBefore (ClosesDue settings content) settings.extension.toList content ∧
      (completeImports settings content).imports =
        (List.range content.length).countP (BeginsDue settings content ·) ∧
      ∀ position path, (position, path) ∈ placed 0 (ofText content) ↔
        ImportAt content position path := by
  refine ⟨flatMap_complete_ofText settings content,
    countP_isCompleted_ofText settings content, fun position path => ?_⟩
  rw [mem_placed_ofText_iff]
  simp

/-- A failed attempt gives back what it has read, the quote of the next opening included. -/
example : (completeImports {} "from 'from '../a';\nfrom './b.js';".toList).text =
    "from 'from '../a.js';\nfrom './b.js';".toList := by
  decide +kernel

end ExplicitImports
