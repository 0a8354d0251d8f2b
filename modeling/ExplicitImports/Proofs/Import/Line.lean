import ExplicitImports.Proofs.Import.LineEnd
import Mathlib.Algebra.Ring.Nat
import Mathlib.Data.List.Basic

/-!
# Line by line

A text is cut into its lines, each with what ends it (`lines`), and completed line by line
(`completeLines`).  An import whose path is unbroken stands within one line, and is found there
as it is found in the whole text.  But a path runs to the next quote wherever that stands, so
an import may begin on one line and end on a later one, and no line has it then.

* `lines_induction` — a text is taken line by line.
* `completeImports_eq_completeLines_iff` — to complete a text and to complete its lines is the
  same if and only if the paths of the imports that are due are unbroken.
* `not_forall_completeLines` — an import that begins on one line and ends on the next.
-/

namespace ExplicitImports

open Segment

/-- The lines of a text, each with the line feed, the carriage return or both that end it. -/
def lines : List Char → List (List Char)
  | [] => []
  | '\r' :: '\n' :: rest => ['\r', '\n'] :: lines rest
  | c :: rest =>
      if EndsLine c then [c] :: lines rest
      else match lines rest with
        | [] => [[c]]
        | line :: later => (c :: line) :: later

/-- Complete each line of a text for itself. -/
def completeLines (settings : Settings) (content : List Char) : Completion :=
  let completions := (lines content).map (completeImports settings)
  { text := completions.flatMap Completion.text
    imports := (completions.map Completion.imports).sum }

/-- This is a line with what ends it, and that the text behind it.  Nothing but its end ends
the line, and only the last line may have none. -/
structure FirstLine (line rest : List Char) : Prop where
  nonempty : line ≠ []
  parts : ∃ body ending, line = body ++ ending ∧ Unbroken body ∧ ∀ c ∈ ending, EndsLine c
  ended : rest = [] ∨ ∃ front c, line = front ++ [c] ∧ EndsLine c

theorem FirstLine.cons {line rest : List Char} (h : FirstLine line rest) {c : Char}
    (hc : ¬EndsLine c) : FirstLine (c :: line) rest := by
  refine ⟨List.cons_ne_nil c line, ?_, ?_⟩
  · obtain ⟨body, ending, rfl, hbody, hending⟩ := h.parts
    refine ⟨c :: body, ending, rfl, ?_, hending⟩
    intro d hd
    rcases List.mem_cons.1 hd with rfl | hd
    · exact hc
    · exact hbody d hd
  · rcases h.ended with hrest | ⟨front, d, rfl, hd⟩
    · exact .inl hrest
    · exact .inr ⟨c :: front, d, rfl, hd⟩

/-- What ends a line makes up a line of its own. -/
theorem FirstLine.of_lineEnd (lineEnd : LineEnd) (rest : List Char) :
    FirstLine lineEnd.text rest := by
  refine ⟨?_, ⟨[], lineEnd.text, rfl, fun _ h => absurd h List.not_mem_nil, fun _ h =>
    LineEnd.endsLine_of_mem h⟩, .inr ?_⟩
  · obtain ⟨c, tail, htext, -⟩ := lineEnd.exists_text_eq_cons
    simp [htext]
  · cases lineEnd
    · exact ⟨[], '\n', rfl, .inr rfl⟩
    · exact ⟨['\r'], '\n', rfl, .inr rfl⟩
    · exact ⟨[], '\r', rfl, .inl rfl⟩

theorem exists_firstLine {content : List Char} (h : content ≠ []) :
    ∃ line rest, content = line ++ rest ∧ FirstLine line rest ∧
      lines content = line :: lines rest := by
  fun_induction lines content with
  | case1 => exact absurd rfl h
  | case2 rest ih => exact ⟨_, rest, rfl, .of_lineEnd .both rest, rfl⟩
  | case3 c rest hboth hends ih =>
      rcases hends with rfl | rfl
      · exact ⟨_, rest, rfl, .of_lineEnd .carriageReturn rest, rfl⟩
      · exact ⟨_, rest, rfl, .of_lineEnd .lineFeed rest, rfl⟩
  | case4 c rest hboth hends hnone ih =>
      cases rest with
      | nil =>
          refine ⟨[c], [], rfl, ⟨by simp, ⟨[c], [], rfl, ?_, by simp⟩, .inl rfl⟩, rfl⟩
          simpa [Unbroken] using hends
      | cons d rest =>
          obtain ⟨line, later, -, -, hlines⟩ := ih (List.cons_ne_nil d rest)
          rw [hnone] at hlines
          cases hlines
  | case5 c rest hboth hends line later hlines ih =>
      have hrest : rest ≠ [] := by
        rintro rfl
        cases hlines
      obtain ⟨first, tail, rfl, hfirst, htail⟩ := ih hrest
      rw [hlines] at htail
      cases htail
      exact ⟨c :: line, tail, rfl, hfirst.cons hends, rfl⟩

/-- A text is taken line by line. -/
theorem lines_induction {motive : List Char → Prop} (hnil : motive [])
    (hline : ∀ line rest, FirstLine line rest → lines (line ++ rest) = line :: lines rest →
      motive rest → motive (line ++ rest)) (content : List Char) : motive content := by
  induction hlength : content.length using Nat.strong_induction_on generalizing content with
  | _ length ih =>
      obtain rfl | hne := eq_or_ne content []
      · exact hnil
      · obtain ⟨line, rest, rfl, hfirst, hlines⟩ := exists_firstLine hne
        refine hline line rest hfirst hlines (ih rest.length ?_ rest rfl)
        have := List.length_pos_iff.2 hfirst.nonempty
        rw [← hlength, List.length_append]
        omega

/-- The lines of a text make up the text. -/
theorem flatten_lines (content : List Char) : (lines content).flatten = content := by
  induction content using lines_induction with
  | hnil => rfl
  | hline line rest hfirst hlines ih => rw [hlines, List.flatten_cons, ih]

example : lines "a\r\nb\rc\n\nd".toList =
    ["a\r\n", "b\r", "c\n", "\n", "d"].map String.toList := by decide

/-- An import that stands at a position, between what comes before it and what comes after. -/
theorem importAt_iff_exists_append {content path : List Char} {position : Nat} :
    ImportAt content position path ↔
      ∃ front after, content = front ++ (opening ++ path ++ closing) ++ after ∧
        front.length = position ∧ path.head? = some '.' ∧ '\'' ∉ path ∧
        atLineEnd after = true := by
  rw [importAt_iff]
  constructor
  · intro h
    obtain ⟨after, hread⟩ := h
    obtain ⟨hdrop, hparts⟩ := importAt?_eq_some_iff.1 hread
    have hle : position ≤ content.length := by
      by_contra hlong
      rw [List.drop_of_length_le (by omega)] at hdrop
      simp [opening] at hdrop
    refine ⟨content.take position, after, ?_, List.length_take_of_le hle, hparts⟩
    rw [List.append_assoc, ← hdrop, List.take_append_drop]
  · rintro ⟨front, after, rfl, rfl, hparts⟩
    refine ⟨after, importAt?_eq_some_iff.2 ⟨?_, hparts⟩⟩
    rw [List.append_assoc, List.drop_left]

/-- Behind a text stand the imports of what follows it. -/
theorem importAt_length_add_iff (front : List Char) {rest path : List Char} {position : Nat} :
    ImportAt (front ++ rest) (front.length + position) path ↔ ImportAt rest position path := by
  rw [importAt_iff, importAt_iff, List.drop_length_add_append]

theorem ImportAt.fits {content path : List Char} {position : Nat}
    (h : ImportAt content position path) :
    position + (opening.length + path.length + closing.length) ≤ content.length := by
  obtain ⟨front, after, rfl, rfl, -⟩ := importAt_iff_exists_append.1 h
  simp only [List.length_append]
  omega

/-- One position has one import. -/
theorem ImportAt.path_unique {content path other : List Char} {position : Nat}
    (h : ImportAt content position path) (hother : ImportAt content position other) :
    path = other := by
  obtain ⟨after, hread⟩ := importAt_iff.1 h
  obtain ⟨behind, hread'⟩ := importAt_iff.1 hother
  rw [hread] at hread'
  cases hread'
  rfl

namespace FirstLine

variable {line rest path : List Char} {position : Nat} (h : FirstLine line rest)

include h

/-- What stands in a line before a character that ends no line is unbroken. -/
theorem unbroken_of_append_cons {front after : List Char} {c : Char}
    (hline : line = front ++ c :: after) (hc : ¬EndsLine c) : Unbroken front := by
  obtain ⟨body, ending, hparts, hbody, hending⟩ := h.parts
  rw [hline] at hparts
  rcases List.append_eq_append_iff.1 hparts with ⟨more, rfl, -⟩ | ⟨more, -, hmore⟩
  · exact fun d hd => hbody d (List.mem_append_left _ hd)
  · exact absurd (hending c (by simp [hmore])) hc

/-- An import that stands in a line has an unbroken path. -/
theorem unbroken_of_importAt (hat : ImportAt line position path) : Unbroken path := by
  obtain ⟨front, after, hline, -⟩ := importAt_iff_exists_append.1 hat
  have hquote : ¬EndsLine '\'' := by decide
  have hcut : line = (front ++ opening ++ path) ++ '\'' :: (';' :: after) := by
    simpa [closing] using hline
  have hbefore := h.unbroken_of_append_cons hcut hquote
  exact fun c hc => hbefore c (List.mem_append_right _ hc)

/-- It stands in the whole text as well. -/
theorem importAt_append (hat : ImportAt line position path) :
    ImportAt (line ++ rest) position path := by
  obtain ⟨front, after, hline, hlength, hdot, hquote, hend⟩ := importAt_iff_exists_append.1 hat
  refine importAt_iff_exists_append.2
    ⟨front, after ++ rest, by rw [hline, List.append_assoc], hlength, hdot, hquote, ?_⟩
  cases after with
  | cons c after => exact hend
  | nil =>
      -- A line that ends in a semicolon is the last one.
      rcases h.ended with rfl | ⟨before, c, hended, hc⟩
      · rfl
      · rw [hline, List.append_nil] at hended
        have hlast := congrArg List.getLast? hended
        simp [closing] at hlast
        subst hlast
        exact absurd hc (by decide)

/-- An import with an unbroken path that begins in the line ends in it. -/
theorem importAt_of_append (hat : ImportAt (line ++ rest) position path)
    (hposition : position < line.length) (hunbroken : Unbroken path) :
    ImportAt line position path := by
  obtain ⟨front, after, hwhole, rfl, hdot, hquote, hend⟩ := importAt_iff_exists_append.1 hat
  have himport : Unbroken (opening ++ path ++ closing) := by
    intro c hc
    simp only [List.mem_append] at hc
    rcases hc with (hc | hc) | hc
    · exact unbroken_opening c hc
    · exact hunbroken c hc
    · exact unbroken_closing c hc
  -- The line ends behind the import, or within it.
  rcases List.append_eq_append_iff.1 hwhole with ⟨more, hmore, hrest⟩ | ⟨more, rfl, rfl⟩
  · rcases h.ended with rfl | ⟨before, c, hended, hc⟩
    · obtain ⟨rfl, rfl⟩ := List.append_eq_nil_iff.1 hrest.symm
      refine importAt_iff_exists_append.2 ⟨front, [], ?_, rfl, hdot, hquote, rfl⟩
      rw [List.append_nil, hmore, List.append_nil]
    · exfalso
      rcases List.append_eq_append_iff.1 hmore with ⟨within, hline, hinside⟩ | ⟨behind, hfront, -⟩
      · -- What ends the line would be a character of the import.
        have hlast : c ∈ within := by
          have hne : within ≠ [] := by
            rintro rfl
            simp [hline] at hposition
          apply List.mem_of_getLast?
          rw [← List.getLast?_append_of_ne_nil front hne, ← hline, hended, List.getLast?_concat]
        exact himport c (hinside ▸ List.mem_append_left more hlast) hc
      · rw [hfront, List.length_append] at hposition
        omega
  · refine importAt_iff_exists_append.2 ⟨front, more, rfl, rfl, hdot, hquote, ?_⟩
    cases more with
    | nil => rfl
    | cons c more => exact hend

/-- The imports with an unbroken path are those of the line and those of the text behind it. -/
theorem importAt_append_iff :
    ImportAt (line ++ rest) position path ∧ Unbroken path ↔
      ImportAt line position path ∨
        ∃ k, position = line.length + k ∧ ImportAt rest k path ∧ Unbroken path := by
  constructor
  · rintro ⟨hat, hunbroken⟩
    by_cases hposition : position < line.length
    · exact .inl (h.importAt_of_append hat hposition hunbroken)
    · obtain ⟨k, rfl⟩ := Nat.exists_eq_add_of_le (Nat.le_of_not_lt hposition)
      exact .inr ⟨k, rfl, (importAt_length_add_iff line).1 hat, hunbroken⟩
  · rintro (hat | ⟨k, rfl, hat, hunbroken⟩)
    · exact ⟨h.importAt_append hat, h.unbroken_of_importAt hat⟩
    · exact ⟨(importAt_length_add_iff line).2 hat, hunbroken⟩

end FirstLine

section InLine

variable (settings : Settings)

/-- At this position begins an import that is due and has an unbroken path. -/
def BeginsInLine (content : List Char) (position : Nat) : Prop :=
  ∃ path, DueAt settings content position path ∧ Unbroken path

/-- At this position stands the closing quote of such an import. -/
def ClosesInLine (content : List Char) (position : Nat) : Prop :=
  ∃ start path, (DueAt settings content start path ∧ Unbroken path) ∧
    position = start + opening.length + path.length

variable {settings} {line rest : List Char} (h : FirstLine line rest)

include h

theorem FirstLine.dueAt_append_iff {position : Nat} {path : List Char} :
    DueAt settings (line ++ rest) position path ∧ Unbroken path ↔
      DueAt settings line position path ∨
        ∃ k, position = line.length + k ∧ DueAt settings rest k path ∧ Unbroken path := by
  simp only [dueAt_iff]
  constructor
  · rintro ⟨⟨hat, hcompletes⟩, hunbroken⟩
    rcases h.importAt_append_iff.1 ⟨hat, hunbroken⟩ with hline | ⟨k, hk, hrest, -⟩
    · exact .inl ⟨hline, hcompletes⟩
    · exact .inr ⟨k, hk, ⟨hrest, hcompletes⟩, hunbroken⟩
  · rintro (⟨hline, hcompletes⟩ | ⟨k, hk, ⟨hrest, hcompletes⟩, hunbroken⟩)
    · obtain ⟨hat, hunbroken⟩ := h.importAt_append_iff.2 (.inl hline)
      exact ⟨⟨hat, hcompletes⟩, hunbroken⟩
    · obtain ⟨hat, -⟩ := h.importAt_append_iff.2 (.inr ⟨k, hk, hrest, hunbroken⟩)
      exact ⟨⟨hat, hcompletes⟩, hunbroken⟩

theorem FirstLine.beginsInLine_iff_of_lt {position : Nat} (hposition : position < line.length) :
    BeginsInLine settings (line ++ rest) position ↔ BeginsDue settings line position := by
  simp only [BeginsInLine, h.dueAt_append_iff, BeginsDue]
  refine exists_congr fun path => or_iff_left ?_
  rintro ⟨k, rfl, -⟩
  omega

theorem FirstLine.beginsInLine_length_add_iff (position : Nat) :
    BeginsInLine settings (line ++ rest) (line.length + position) ↔
      BeginsInLine settings rest position := by
  simp only [BeginsInLine, h.dueAt_append_iff]
  refine exists_congr fun path => ?_
  rw [or_iff_right]
  · simp
  · intro hline
    have := hline.imported.fits
    have hclosing : closing.length = 2 := rfl
    omega

theorem FirstLine.closesInLine_iff_of_lt {position : Nat} (hposition : position < line.length) :
    ClosesInLine settings (line ++ rest) position ↔ ClosesDue settings line position := by
  simp only [ClosesInLine, h.dueAt_append_iff, ClosesDue]
  refine exists_congr fun start => exists_congr fun path => and_congr_left fun hquote => ?_
  apply or_iff_left
  rintro ⟨k, rfl, -⟩
  omega

theorem FirstLine.closesInLine_length_add_iff (position : Nat) :
    ClosesInLine settings (line ++ rest) (line.length + position) ↔
      ClosesInLine settings rest position := by
  simp only [ClosesInLine, h.dueAt_append_iff]
  constructor
  · rintro ⟨start, path, hline | ⟨k, rfl, hrest⟩, hquote⟩
    · have := hline.imported.fits
      have hclosing : closing.length = 2 := rfl
      omega
    · exact ⟨k, path, hrest, by omega⟩
  · rintro ⟨k, path, hrest, rfl⟩
    exact ⟨line.length + k, path, .inr ⟨k, rfl, hrest⟩, by omega⟩

end InLine

section Lines

variable (settings : Settings)

theorem completeLines_append {line rest : List Char} (h : lines (line ++ rest) = line :: lines rest) :
    completeLines settings (line ++ rest) =
      { text := (completeImports settings line).text ++ (completeLines settings rest).text
        imports := (completeImports settings line).imports +
          (completeLines settings rest).imports } := by
  simp only [completeLines, h, List.map_cons, List.flatMap_cons, List.sum_cons]

open Classical in
/-- Line by line a text gets the extension at the imports with unbroken paths. -/
theorem text_completeLines (content : List Char) :
    (completeLines settings content).text =
      insertBefore (ClosesInLine settings content) settings.extension.toList content := by
  induction content using lines_induction with
  | hnil => rfl
  | hline line rest hfirst hlines ih =>
      have hline : (completeImports settings line).text =
          insertBefore (ClosesInLine settings (line ++ rest)) settings.extension.toList line := by
        rw [insertBefore_congr _ fun k hk => hfirst.closesInLine_iff_of_lt hk]
        exact flatMap_complete_ofText settings line
      have hrest : insertBefore (ClosesInLine settings rest) settings.extension.toList rest =
          insertBefore (fun k => ClosesInLine settings (line ++ rest) (line.length + k))
            settings.extension.toList rest :=
        insertBefore_congr _ fun k _ => (hfirst.closesInLine_length_add_iff k).symm
      rw [completeLines_append settings hlines, insertBefore_append, ← hline, ← hrest, ih]

open Classical in
/-- It is these imports that are counted. -/
theorem imports_completeLines (content : List Char) :
    (completeLines settings content).imports =
      (List.range content.length).countP (BeginsInLine settings content ·) := by
  induction content using lines_induction with
  | hnil => rfl
  | hline line rest hfirst hlines ih =>
      have hline : (completeImports settings line).imports =
          (List.range line.length).countP (BeginsInLine settings (line ++ rest) ·) := by
        refine (countP_isCompleted_ofText settings line).trans (List.countP_congr fun k hk => ?_)
        rw [decide_eq_true_eq, decide_eq_true_eq,
          hfirst.beginsInLine_iff_of_lt (List.mem_range.1 hk)]
      have hrest : (List.range rest.length).countP (BeginsInLine settings rest ·) =
          (List.range rest.length).countP
            fun k => BeginsInLine settings (line ++ rest) (line.length + k) := by
        refine List.countP_congr fun k _ => ?_
        rw [decide_eq_true_eq, decide_eq_true_eq, hfirst.beginsInLine_length_add_iff]
      rw [completeLines_append settings hlines, List.length_append, countP_range_add, ← hline,
        ← hrest, ih]

end Lines

/-- Of two tests one of which is the stronger, equally many items can only pass if the same
ones do. -/
theorem imp_of_countP_eq {α : Type} {strong weak : α → Bool} {items : List α}
    (himp : ∀ item, strong item = true → weak item = true)
    (hcount : items.countP strong = items.countP weak) {item : α} (hmem : item ∈ items)
    (hweak : weak item = true) : strong item = true := by
  have hsame : items.filter strong = items.filter weak :=
    (List.monotone_filter_right items himp).eq_of_length (by
      rw [← List.countP_eq_length_filter, ← List.countP_eq_length_filter, hcount])
  have hfound : item ∈ items.filter strong := hsame ▸ List.mem_filter.2 ⟨hmem, hweak⟩
  exact (List.mem_filter.1 hfound).2

/-- To complete a text and to complete its lines one by one is the same if and only if no line
ends within the path of an import that is due.  Then the completed text is made up of the
completed lines, and its imports are theirs. -/
theorem completeImports_eq_completeLines_iff (settings : Settings) (content : List Char) :
    completeImports settings content = completeLines settings content ↔
      ∀ position path, DueAt settings content position path → Unbroken path := by
  classical
  have himports : (completeImports settings content).imports =
      (List.range content.length).countP (BeginsDue settings content ·) :=
    countP_isCompleted_ofText settings content
  constructor
  · intro hsame position path hdue
    have hcount : (List.range content.length).countP (BeginsInLine settings content ·) =
        (List.range content.length).countP (BeginsDue settings content ·) := by
      rw [← imports_completeLines, ← hsame, himports]
    have hposition : position ∈ List.range content.length := by
      have := hdue.imported.fits
      have hopening : opening.length = 6 := rfl
      rw [List.mem_range]
      omega
    have himp (k : Nat) (hk : decide (BeginsInLine settings content k) = true) :
        decide (BeginsDue settings content k) = true := by
      obtain ⟨other, hother, -⟩ := of_decide_eq_true hk
      exact decide_eq_true ⟨other, hother⟩
    have hbegins := imp_of_countP_eq himp hcount hposition (decide_eq_true ⟨path, hdue⟩)
    obtain ⟨other, hother, hunbroken⟩ := of_decide_eq_true hbegins
    rwa [hdue.imported.path_unique hother.imported]
  · intro hunbroken
    have htext : (completeImports settings content).text =
        (completeLines settings content).text := by
      rw [text_completeLines]
      refine (flatMap_complete_ofText settings content).trans (insertBefore_congr _ fun k _ => ?_)
      refine exists_congr fun start => exists_congr fun path => and_congr_left fun _ => ?_
      exact (and_iff_left_of_imp (hunbroken start path)).symm
    have hcount : (completeImports settings content).imports =
        (completeLines settings content).imports := by
      rw [imports_completeLines, himports]
      refine List.countP_congr fun k _ => ?_
      rw [decide_eq_true_eq, decide_eq_true_eq]
      exact exists_congr fun path => (and_iff_left_of_imp (hunbroken k path)).symm
    exact Completion.ext htext hcount

/-- So it is not true for every text: this path runs over a line end to the quote on the next
line, where it gets the extension, and of the two lines neither has an import. -/
theorem not_forall_completeLines :
    ¬∀ (settings : Settings) (content : List Char),
      completeImports settings content = completeLines settings content := by
  intro h
  have hsame := h {} "from './a\nb';\n".toList
  have hwhole : (completeImports {} "from './a\nb';\n".toList).imports = 1 := by decide +kernel
  have hlines : (completeLines {} "from './a\nb';\n".toList).imports = 0 := by decide +kernel
  rw [hsame, hlines] at hwhole
  cases hwhole

end ExplicitImports
