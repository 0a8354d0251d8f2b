import ExplicitImports.Import
import Mathlib.Data.List.TakeWhile

/-!
# Imports by position

`ImportAt` says what it is for an import to stand at a position of a text,
whatever stands before it.  This module compares it with the scan:

* `importAt?_eq_some_iff` — the reader of a single import recognizes exactly
  the texts that have one at their start.
* `after_of_overlap` — an import never begins inside another one: what begins
  with an opening and a dot either stands behind the first import or is its start.
* `mem_placed_ofText_iff` — the scan stops at every import, and at nothing else.
-/

namespace ExplicitImports

open Segment

/-- At this position of a text stands an import of this path, which runs to the
very next quote; right behind the semicolon the text or its line ends. -/
structure ImportAt (content : List Char) (position : Nat) (path : List Char) : Prop where
  reads : opening ++ path ++ closing <+: content.drop position
  startsWithDot : path.head? = some '.'
  noQuote : '\'' ∉ path
  endsLine : ∀ c ∈ content[position + (opening ++ path ++ closing).length]?, c = '\r' ∨ c = '\n'

namespace Segment

theorem length_text_imported (path : List Char) :
    (Segment.imported path).text.length = opening.length + path.length + closing.length := by
  simp [Segment.text]
  omega

theorem atLineEnd_iff (after : List Char) :
    atLineEnd after = true ↔ ∀ c ∈ after.head?, c = '\r' ∨ c = '\n' := by
  cases after with
  | nil => simp [atLineEnd]
  | cons c rest =>
      simp [atLineEnd]
      exact or_comm

/-- Up to its first quote a text is what stands before that quote. -/
theorem dropWhile_append_quote {path : List Char} (hquote : '\'' ∉ path) (rest : List Char) :
    (path ++ '\'' :: rest).dropWhile (· ≠ '\'') = '\'' :: rest := by
  rw [List.dropWhile_append_of_pos]
  · simp
  · intro c hc
    have : c ≠ '\'' := fun h => hquote (h ▸ hc)
    simpa using this

theorem takeWhile_append_quote {path : List Char} (hquote : '\'' ∉ path) (rest : List Char) :
    (path ++ '\'' :: rest).takeWhile (· ≠ '\'') = path := by
  rw [List.takeWhile_append_of_pos]
  · simp
  · intro c hc
    have : c ≠ '\'' := fun h => hquote (h ▸ hc)
    simpa using this

/-- What the reader of a single import says about the text it was given. -/
theorem startsWithDot_of_importAt? {text path after : List Char}
    (h : importAt? text = some (path, after)) :
    path.head? = some '.' ∧ '\'' ∉ path ∧ atLineEnd after = true := by
  unfold importAt? at h
  split at h
  · rename_i inside
    split at h
    · split at h
      · rename_i hend
        simp only [Option.some.injEq, Prod.mk.injEq] at h
        obtain ⟨rfl, rfl⟩ := h
        refine ⟨rfl, ?_, hend⟩
        intro hmem
        rcases List.mem_cons.1 hmem with hdot | hinside
        · exact absurd hdot (by decide)
        · simpa using List.mem_takeWhile_imp hinside
      · cases h
    · cases h
  · cases h

/-- A single import is read where opening, path and closing stand before a line end. -/
theorem importAt?_eq_some_iff {text path after : List Char} :
    importAt? text = some (path, after) ↔
      text = opening ++ path ++ closing ++ after ∧ path.head? = some '.' ∧ '\'' ∉ path ∧
        atLineEnd after = true := by
  constructor
  · intro h
    exact ⟨eq_of_importAt? h, startsWithDot_of_importAt? h⟩
  · intro hparts
    obtain ⟨rfl, hdot, hquote, hend⟩ := hparts
    obtain ⟨inside, rfl⟩ := List.head?_eq_some_iff.1 hdot
    have hinside : '\'' ∉ inside := fun h => hquote (List.mem_cons_of_mem _ h)
    have hdrop := dropWhile_append_quote hinside (';' :: after)
    have htake := takeWhile_append_quote hinside (';' :: after)
    simp only [opening, closing, List.cons_append, List.nil_append, List.append_assoc]
    unfold importAt?
    simp only [hdrop, htake, hend, if_true]

/-- The import that stands at a position is the one the text from there starts with. -/
theorem importAt_iff {content path : List Char} {position : Nat} :
    ImportAt content position path ↔
      ∃ after, importAt? (content.drop position) = some (path, after) := by
  have hnext (after : List Char)
      (h : content.drop position = opening ++ path ++ closing ++ after) :
      content[position + (opening ++ path ++ closing).length]? = after.head? := by
    rw [← List.getElem?_drop, h, List.getElem?_append_right (Nat.le_refl _)]
    simp [List.head?_eq_getElem?]
  constructor
  · intro hat
    obtain ⟨⟨after, hreads⟩, hdot, hquote, hends⟩ := hat
    refine ⟨after, importAt?_eq_some_iff.2 ⟨hreads.symm, hdot, hquote, ?_⟩⟩
    rw [hnext after hreads.symm] at hends
    exact (atLineEnd_iff after).2 hends
  · intro hfound
    obtain ⟨after, h⟩ := hfound
    obtain ⟨hreads, hdot, hquote, hends⟩ := importAt?_eq_some_iff.1 h
    refine ⟨⟨after, hreads.symm⟩, hdot, hquote, ?_⟩
    rw [hnext after hreads]
    exact (atLineEnd_iff after).1 hends

/-- No end of an import, taken with what follows it, begins like an import: the quote
of the opening would be the closing one, which a semicolon follows. -/
theorem not_opening_of_suffix {path tail after : List Char} (hquote : '\'' ∉ path)
    (hsuffix : tail <:+ path ++ closing) (htail : tail ≠ []) :
    ¬ opening ++ ['.'] <+: tail ++ after := by
  intro hbegins
  obtain ⟨behind, hopening⟩ := hbegins
  obtain ⟨front, hfront⟩ := hsuffix
  rcases List.append_eq_append_iff.1 hfront with ⟨inside, hpath, rfl⟩ | ⟨inside, -, hclosing⟩
  -- Behind the first quote stands a dot in the one reading and a semicolon in the other.
  · have hinside : '\'' ∉ inside := fun h => hquote (by simp [hpath, h])
    have hleft : (opening ++ ['.'] ++ behind).dropWhile (· ≠ '\'') = '\'' :: '.' :: behind := rfl
    have hright : (inside ++ closing ++ after).dropWhile (· ≠ '\'') = '\'' :: ';' :: after := by
      rw [List.append_assoc]
      exact dropWhile_append_quote hinside (';' :: after)
    rw [hopening, hright] at hleft
    exact absurd hleft (by simp)
  · have hf : 'f' ∈ closing := by
      obtain ⟨c, rest, rfl⟩ := List.exists_cons_of_ne_nil htail
      have hc : 'f' = c := (List.cons.inj hopening).1
      simp [hclosing, ← hc]
    exact absurd hf (by decide)

/-- An opening with a dot that begins inside the text of an import begins at its start. -/
theorem after_of_overlap {plain rest path after : List Char}
    (h : importAt? (plain ++ rest) = some (path, after)) (hplain : plain ≠ [])
    (hrest : opening ++ ['.'] <+: rest) :
    ∃ between, plain = opening ++ path ++ closing ++ between ∧ after = between ++ rest := by
  obtain ⟨htext, -, hquote, -⟩ := importAt?_eq_some_iff.1 h
  rcases List.append_eq_append_iff.1 htext with ⟨tail, htail, rfl⟩ | ⟨between, hbetween, hafter⟩
  · obtain rfl | hne := eq_or_ne tail []
    · exact ⟨[], by simpa using htail.symm, rfl⟩
    · exfalso
      have hsuffix : tail <:+ opening ++ (path ++ closing) :=
        ⟨plain, by rw [← htail, List.append_assoc]⟩
      obtain ⟨behind, hopening⟩ := hrest
      obtain ⟨c, tail, rfl⟩ := List.exists_cons_of_ne_nil hne
      have hc : 'f' = c := (List.cons.inj hopening).1
      subst hc
      -- The only `f` of the opening is its first character, which `plain` has taken.
      simp only [opening, List.cons_append, List.nil_append, List.suffix_cons_iff,
        List.cons.injEq] at hsuffix
      rcases hsuffix with ⟨-, hwhole⟩ | ⟨hr, -⟩ | ⟨ho, -⟩ | ⟨hm, -⟩ | ⟨hs, -⟩ | ⟨hq, -⟩ | hsuffix
      · have hlength := congrArg List.length htail
        have := List.length_pos_iff.2 hplain
        simp only [hwhole, opening, List.length_append, List.length_cons,
          List.length_nil] at hlength
        omega
      · exact absurd hr (by decide)
      · exact absurd ho (by decide)
      · exact absurd hm (by decide)
      · exact absurd hs (by decide)
      · exact absurd hq (by decide)
      · exact not_opening_of_suffix hquote hsuffix hne ⟨behind, hopening⟩
  · exact ⟨between, hbetween, hafter⟩

theorem ofText_of_importAt? {text path after : List Char}
    (h : importAt? text = some (path, after)) :
    ofText text = .imported path :: ofText after := by
  cases text with
  | nil => cases h
  | cons c rest =>
      rw [ofText]
      split
      · rename_i hsome
        rw [h] at hsome
        cases hsome
        rfl
      · rename_i hnone
        rw [h] at hnone
        cases hnone

theorem ofText_cons_of_none {c : Char} {rest : List Char} (h : importAt? (c :: rest) = none) :
    ofText (c :: rest) = .other c :: ofText rest := by
  rw [ofText]
  split
  · rename_i hsome
    rw [h] at hsome
    cases hsome
  · rfl

/-- The imports among the pieces of a text, each with the position it stands at when
the first piece stands at a given one. -/
def placed : Nat → List Segment → List (Nat × List Char)
  | _, [] => []
  | position, .other _ :: rest => placed (position + 1) rest
  | position, .imported path :: rest =>
      (position, path) :: placed (position + (Segment.imported path).text.length) rest

end Segment

/-- No import stands in an empty text. -/
theorem not_importAt_nil (position : Nat) (path : List Char) : ¬ ImportAt [] position path := by
  intro hat
  obtain ⟨hreads, -⟩ := hat
  simp [opening] at hreads

/-- Behind a character that begins no import stand the imports of the text after it. -/
theorem importAt_cons_iff {c : Char} {rest path : List Char} {position : Nat}
    (h : importAt? (c :: rest) = none) :
    ImportAt (c :: rest) position path ↔ ∃ k, position = 1 + k ∧ ImportAt rest k path := by
  cases position with
  | zero =>
      constructor
      · intro hat
        obtain ⟨after, hafter⟩ := importAt_iff.1 hat
        rw [List.drop_zero, h] at hafter
        cases hafter
      · intro hlater
        obtain ⟨k, hk, -⟩ := hlater
        omega
  | succ k =>
      simp only [importAt_iff, List.drop_succ_cons]
      constructor
      · rintro hat
        exact ⟨k, Nat.add_comm k 1, hat⟩
      · intro hlater
        obtain ⟨k', hk, hat⟩ := hlater
        obtain rfl : k' = k := by omega
        exact hat

/-- Where a text starts with an import, the others stand behind it. -/
theorem importAt_append_iff {text path after other : List Char} {position : Nat}
    (h : importAt? text = some (path, after)) :
    ImportAt text position other ↔
      (position = 0 ∧ other = path) ∨
        ∃ k, position = (Segment.imported path).text.length + k ∧ ImportAt after k other := by
  have htext : text = (Segment.imported path).text ++ after := eq_of_importAt? h
  constructor
  · intro hat
    obtain ⟨behind, hbehind⟩ := importAt_iff.1 hat
    obtain rfl | hpos := Nat.eq_zero_or_pos position
    · left
      simp only [List.drop_zero, h, Option.some.injEq, Prod.mk.injEq] at hbehind
      exact ⟨rfl, hbehind.1.symm⟩
    · right
      have hsplit : text.take position ++ text.drop position = text :=
        List.take_append_drop position text
      have hplain : text.take position ≠ [] := by
        intro hnil
        rcases List.take_eq_nil_iff.1 hnil with hzero | rfl
        · omega
        · exact not_importAt_nil position other hat
      have hstart : opening ++ ['.'] <+: text.drop position := by
        obtain ⟨hdrop, hdot, -⟩ := importAt?_eq_some_iff.1 hbehind
        obtain ⟨inside, rfl⟩ := List.head?_eq_some_iff.1 hdot
        rw [hdrop]
        exact ⟨inside ++ closing ++ behind, by simp⟩
      obtain ⟨between, hplain, hafter⟩ := after_of_overlap (hsplit ▸ h) hplain hstart
      refine ⟨between.length, ?_, ?_⟩
      · have hlength := congrArg List.length hplain
        rw [List.length_take_of_le] at hlength
        · simpa [Segment.text, Nat.add_assoc] using hlength
        · by_contra hlong
          rw [List.drop_of_length_le (by omega)] at hbehind
          simp [importAt?] at hbehind
      · rw [importAt_iff, hafter, List.drop_left]
        exact ⟨behind, hbehind⟩
  · intro hcases
    rcases hcases with ⟨rfl, rfl⟩ | ⟨k, rfl, hat⟩
    · exact importAt_iff.2 ⟨after, h⟩
    · rw [importAt_iff] at hat ⊢
      rwa [htext, List.drop_length_add_append]

/-- The scan from the left stops at every import, wherever it stands, and at nothing
else. -/
theorem mem_placed_ofText_iff (content path : List Char) (start position : Nat) :
    (position, path) ∈ placed start (ofText content) ↔
      ∃ k, position = start + k ∧ ImportAt content k path := by
  fun_induction ofText content generalizing start with
  | case1 => simp [placed, not_importAt_nil]
  | case2 c rest other after h ih =>
      rw [placed, List.mem_cons, Prod.mk.injEq, ih]
      constructor
      · intro hcases
        rcases hcases with ⟨rfl, rfl⟩ | ⟨k, rfl, hat⟩
        · exact ⟨0, rfl, (importAt_append_iff h).2 (.inl ⟨rfl, rfl⟩)⟩
        · exact ⟨_, Nat.add_assoc _ _ _, (importAt_append_iff h).2 (.inr ⟨k, rfl, hat⟩)⟩
      · intro hlater
        obtain ⟨k, rfl, hat⟩ := hlater
        rcases (importAt_append_iff h).1 hat with ⟨rfl, rfl⟩ | ⟨k, rfl, hafter⟩
        · exact .inl ⟨rfl, rfl⟩
        · exact .inr ⟨k, (Nat.add_assoc _ _ _).symm, hafter⟩
  | case3 c rest h ih =>
      rw [placed, ih]
      constructor
      · rintro ⟨k, rfl, hat⟩
        exact ⟨1 + k, Nat.add_assoc _ _ _, (importAt_cons_iff h).2 ⟨k, rfl, hat⟩⟩
      · rintro ⟨k, rfl, hat⟩
        obtain ⟨k, rfl, hrest⟩ := (importAt_cons_iff h).1 hat
        exact ⟨k, (Nat.add_assoc _ _ _).symm, hrest⟩

end ExplicitImports
