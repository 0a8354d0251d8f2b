import ExplicitImports.Proofs.Import.Composition

/-!
# Line ends

Lines end in a line feed, in a carriage return, or in both.  Which of these a text uses does
not matter to completion, and is kept by it: where each line feed of a text is written in a
way of its own, the completed text is the one completed before with its line feeds written in
these ways (`completeImports_withLineEnds`).  For this the extension and the excluded prefixes
have to be `Unbroken`, while the path of an import may run over line ends.
-/

namespace ExplicitImports

open Segment

/-- Does a line end with this character? -/
def EndsLine (c : Char) : Prop :=
  c = '\r' ∨ c = '\n'

instance : DecidablePred EndsLine := fun c =>
  inferInstanceAs (Decidable (c = '\r' ∨ c = '\n'))

/-- No line ends within this text. -/
def Unbroken (text : List Char) : Prop :=
  ∀ c ∈ text, ¬EndsLine c

instance : DecidablePred Unbroken :=
  List.decidableBAll (¬EndsLine ·)

/-- A way to end a line. -/
inductive LineEnd where
  | lineFeed
  | both
  | carriageReturn
  deriving DecidableEq, Repr

def LineEnd.text : LineEnd → List Char
  | .lineFeed => ['\n']
  | .both => ['\r', '\n']
  | .carriageReturn => ['\r']

/-- A text with its line feeds written as line ends of choice, the first one as the first of
them and so on. -/
def withLineEnds (ends : Nat → LineEnd) : List Char → List Char
  | [] => []
  | c :: rest =>
      if c = '\n' then (ends 0).text ++ withLineEnds (fun j => ends (1 + j)) rest
      else c :: withLineEnds ends rest

theorem unbroken_opening : Unbroken opening := by decide

theorem unbroken_closing : Unbroken closing := by decide

theorem Unbroken.newline_notMem {text : List Char} (h : Unbroken text) : '\n' ∉ text :=
  fun hmem => h '\n' hmem (.inr rfl)

section WithLineEnds

variable (ends : Nat → LineEnd)

@[simp] theorem withLineEnds_nil : withLineEnds ends [] = [] := rfl

theorem withLineEnds_newline (rest : List Char) :
    withLineEnds ends ('\n' :: rest) =
      (ends 0).text ++ withLineEnds (fun j => ends (1 + j)) rest := by
  simp [withLineEnds]

theorem withLineEnds_cons_of_ne {c : Char} (h : c ≠ '\n') (rest : List Char) :
    withLineEnds ends (c :: rest) = c :: withLineEnds ends rest := by
  simp [withLineEnds, h]

/-- The line ends of a second text are chosen where the first one has left off. -/
theorem withLineEnds_append (front back : List Char) :
    withLineEnds ends (front ++ back) =
      withLineEnds ends front ++ withLineEnds (fun j => ends (front.count '\n' + j)) back := by
  induction front generalizing ends with
  | nil => simp
  | cons c front ih =>
      by_cases hc : c = '\n'
      · subst hc
        have hshift (j : Nat) : 1 + (front.count '\n' + j) = front.count '\n' + 1 + j := by
          omega
        simp only [List.cons_append, withLineEnds_newline, ih, List.count_cons_self,
          List.append_assoc, hshift]
      · simp only [List.cons_append, withLineEnds_cons_of_ne ends hc, ih,
          List.count_cons_of_ne hc]

theorem withLineEnds_of_unbroken {text : List Char} (h : Unbroken text) :
    withLineEnds ends text = text := by
  induction text with
  | nil => rfl
  | cons c rest ih =>
      have hc : c ≠ '\n' := fun hc => h c List.mem_cons_self (.inr hc)
      rw [withLineEnds_cons_of_ne ends hc, ih fun d hd => h d (List.mem_cons_of_mem c hd)]

/-- A text that is unbroken, before others: no choice is made in it. -/
theorem withLineEnds_append_of_unbroken {front : List Char} (h : Unbroken front)
    (back : List Char) :
    withLineEnds ends (front ++ back) = front ++ withLineEnds ends back := by
  rw [withLineEnds_append, withLineEnds_of_unbroken ends h,
    List.count_eq_zero.2 h.newline_notMem]
  simp only [Nat.zero_add]

/-- A line end begins with a character that ends a line. -/
theorem LineEnd.exists_text_eq_cons (lineEnd : LineEnd) :
    ∃ c rest, lineEnd.text = c :: rest ∧ EndsLine c := by
  cases lineEnd
  · exact ⟨'\n', [], rfl, .inr rfl⟩
  · exact ⟨'\r', ['\n'], rfl, .inl rfl⟩
  · exact ⟨'\r', [], rfl, .inl rfl⟩

theorem LineEnd.endsLine_of_mem {lineEnd : LineEnd} {c : Char} (h : c ∈ lineEnd.text) :
    EndsLine c := by
  cases lineEnd <;> simp_all [LineEnd.text, EndsLine]

/-- What begins no line end stood in the text before. -/
theorem exists_of_withLineEnds_eq_cons {text later : List Char} {c : Char} (hc : ¬EndsLine c)
    (h : withLineEnds ends text = c :: later) :
    ∃ rest, text = c :: rest ∧ withLineEnds ends rest = later := by
  cases text with
  | nil => cases h
  | cons d rest =>
      by_cases hd : d = '\n'
      · subst hd
        obtain ⟨e, tail, htext, he⟩ := (ends 0).exists_text_eq_cons
        rw [withLineEnds_newline, htext] at h
        obtain ⟨rfl, -⟩ := List.cons.inj h
        exact absurd he hc
      · rw [withLineEnds_cons_of_ne ends hd] at h
        obtain ⟨rfl, hrest⟩ := List.cons.inj h
        exact ⟨rest, rfl, hrest⟩

theorem exists_of_withLineEnds_eq_append {front later text : List Char} (hfront : Unbroken front)
    (h : withLineEnds ends text = front ++ later) :
    ∃ rest, text = front ++ rest ∧ withLineEnds ends rest = later := by
  induction front generalizing text with
  | nil => exact ⟨text, rfl, h⟩
  | cons c front ih =>
      obtain ⟨rest, rfl, hrest⟩ :=
        exists_of_withLineEnds_eq_cons ends (hfront c List.mem_cons_self) h
      obtain ⟨back, rfl, hback⟩ := ih (fun d hd => hfront d (List.mem_cons_of_mem c hd)) hrest
      exact ⟨back, rfl, hback⟩

theorem withLineEnds_eq_nil_iff {text : List Char} : withLineEnds ends text = [] ↔ text = [] := by
  constructor
  · intro h
    cases text with
    | nil => rfl
    | cons c rest =>
        by_cases hc : c = '\n'
        · subst hc
          obtain ⟨d, tail, htext, -⟩ := (ends 0).exists_text_eq_cons
          simp [withLineEnds_newline, htext] at h
        · simp [withLineEnds_cons_of_ne ends hc] at h
  · rintro rfl
    rfl

/-- A text that comes out unbroken was unbroken, and is the same. -/
theorem withLineEnds_eq_iff {text other : List Char} (h : Unbroken other) :
    withLineEnds ends text = other ↔ text = other := by
  constructor
  · intro htext
    rw [← List.append_nil other] at htext
    obtain ⟨rest, rfl, hrest⟩ := exists_of_withLineEnds_eq_append ends h htext
    rw [(withLineEnds_eq_nil_iff ends).1 hrest, List.append_nil]
  · rintro rfl
    exact withLineEnds_of_unbroken ends h

/-- The choice of line ends is no matter to the characters that end no line. -/
theorem mem_withLineEnds_iff {c : Char} (hc : ¬EndsLine c) {text : List Char} :
    c ∈ withLineEnds ends text ↔ c ∈ text := by
  induction text generalizing ends with
  | nil => simp
  | cons d rest ih =>
      by_cases hd : d = '\n'
      · subst hd
        have hend : c ∉ (ends 0).text := fun h => hc (LineEnd.endsLine_of_mem h)
        have hne : c ≠ '\n' := fun h => hc (.inr h)
        simp [withLineEnds_newline, hend, hne, ih]
      · simp [withLineEnds_cons_of_ne ends hd, ih]

theorem head?_withLineEnds_iff {c : Char} (hc : ¬EndsLine c) {text : List Char} :
    (withLineEnds ends text).head? = some c ↔ text.head? = some c := by
  simp only [List.head?_eq_some_iff]
  constructor
  · intro h
    obtain ⟨later, hlater⟩ := h
    obtain ⟨rest, rfl, -⟩ := exists_of_withLineEnds_eq_cons ends hc hlater
    exact ⟨rest, rfl⟩
  · rintro ⟨rest, rfl⟩
    exact ⟨_, withLineEnds_cons_of_ne ends (fun h => hc (.inr h)) rest⟩

/-- A line ends before a text if it ends before the text with other line ends. -/
theorem atLineEnd_withLineEnds (text : List Char) :
    atLineEnd (withLineEnds ends text) = atLineEnd text := by
  cases text with
  | nil => rfl
  | cons c rest =>
      by_cases hc : c = '\n'
      · subst hc
        obtain ⟨d, tail, htext, hd⟩ := (ends 0).exists_text_eq_cons
        have hends : atLineEnd (d :: (tail ++ withLineEnds (fun j => ends (1 + j)) rest)) = true := by
          rw [atLineEnd_iff]
          rintro e he
          cases he
          exact hd
        rw [withLineEnds_newline, htext, List.cons_append, hends]
        rfl
      · rw [withLineEnds_cons_of_ne ends hc]
        rfl

/-- An unbroken text is a start of both or of neither. -/
theorem prefix_withLineEnds_iff {start text : List Char} (h : Unbroken start) :
    start <+: withLineEnds ends text ↔ start <+: text := by
  constructor
  · rintro ⟨later, hlater⟩
    obtain ⟨rest, rfl, -⟩ := exists_of_withLineEnds_eq_append ends h hlater.symm
    exact List.prefix_append _ _
  · rintro ⟨rest, rfl⟩
    rw [withLineEnds_append_of_unbroken ends h]
    exact List.prefix_append _ _

theorem suffix_cons_iff_of_endsLine {tail text : List Char} {c : Char} (h : Unbroken tail)
    (hc : EndsLine c) : tail <:+ c :: text ↔ tail <:+ text := by
  rw [List.suffix_cons_iff]
  apply or_iff_right
  rintro rfl
  exact h c List.mem_cons_self hc

/-- An unbroken text is an end of both or of neither. -/
theorem suffix_withLineEnds_iff {tail text : List Char} (h : Unbroken tail) :
    tail <:+ withLineEnds ends text ↔ tail <:+ text := by
  induction text generalizing ends with
  | nil => rfl
  | cons c rest ih =>
      by_cases hc : c = '\n'
      · subst hc
        rw [withLineEnds_newline, suffix_cons_iff_of_endsLine h (.inr rfl), ← ih]
        cases ends 0 with
        | lineFeed => exact suffix_cons_iff_of_endsLine h (.inr rfl)
        | both =>
            exact (suffix_cons_iff_of_endsLine h (.inl rfl)).trans
              (suffix_cons_iff_of_endsLine h (.inr rfl))
        | carriageReturn => exact suffix_cons_iff_of_endsLine h (.inl rfl)
      · rw [withLineEnds_cons_of_ne ends hc, List.suffix_cons_iff, List.suffix_cons_iff, ih]
        apply or_congr_left
        have hsame : withLineEnds ends (c :: rest) = tail ↔ c :: rest = tail :=
          withLineEnds_eq_iff ends h
        rw [withLineEnds_cons_of_ne ends hc] at hsame
        rw [eq_comm, hsame, eq_comm]

/-- The reader of a single import finds one if it does with other line ends, and the same one
with these line ends in its path. -/
theorem importAt?_withLineEnds (text : List Char) :
    importAt? (withLineEnds ends text) = (importAt? text).map fun found =>
      (withLineEnds ends found.1,
        withLineEnds (fun j => ends (found.1.count '\n' + j)) found.2) := by
  have hquote : ¬EndsLine '\'' := by decide
  have hsemicolon : ¬EndsLine ';' := by decide
  have hdot : ¬EndsLine '.' := by decide
  cases hread : importAt? text with
  | some found =>
      obtain ⟨path, after⟩ := found
      obtain ⟨rfl, hstart, hinside, hend⟩ := importAt?_eq_some_iff.1 hread
      refine importAt?_eq_some_iff.2 ⟨?_, ?_, ?_, ?_⟩
      · simp only [List.append_assoc]
        rw [withLineEnds_append_of_unbroken ends unbroken_opening, withLineEnds_append,
          withLineEnds_append_of_unbroken _ unbroken_closing]
      · rwa [head?_withLineEnds_iff ends hdot]
      · rwa [mem_withLineEnds_iff ends hquote]
      · rwa [atLineEnd_withLineEnds]
  | none =>
      -- An import that is read now can be taken back, piece by piece, to one in the text.
      cases hlater : importAt? (withLineEnds ends text) with
      | none => rfl
      | some found =>
          exfalso
          obtain ⟨path, after⟩ := found
          obtain ⟨htext, hstart, hinside, hend⟩ := importAt?_eq_some_iff.1 hlater
          simp only [List.append_assoc] at htext
          obtain ⟨behind, rfl, hbehind⟩ :=
            exists_of_withLineEnds_eq_append ends unbroken_opening htext
          -- The path ends at the first quote, which comes first in the text as well.
          have hmem : '\'' ∈ behind := by
            rw [← mem_withLineEnds_iff ends hquote, hbehind]
            simp [closing]
          obtain ⟨front, back, rfl, hfront⟩ := List.eq_append_cons_of_mem hmem
          have hcut : withLineEnds ends front ++
              '\'' :: withLineEnds (fun j => ends (front.count '\n' + j)) back =
                path ++ '\'' :: ';' :: after := by
            rw [← withLineEnds_cons_of_ne _ (by decide), ← withLineEnds_append, hbehind]
            rfl
          have hpath : withLineEnds ends front = path := by
            have htake := congrArg (List.takeWhile (· ≠ '\'')) hcut
            rwa [takeWhile_append_quote (mt (mem_withLineEnds_iff ends hquote).1 hfront),
              takeWhile_append_quote hinside] at htake
          subst hpath
          have hback := (List.cons.inj (List.append_cancel_left hcut)).2
          obtain ⟨rest, rfl, rfl⟩ := exists_of_withLineEnds_eq_cons _ hsemicolon hback
          have hfound : importAt? (opening ++ (front ++ '\'' :: ';' :: rest)) =
              some (front, rest) := by
            refine importAt?_eq_some_iff.2 ⟨?_, ?_, hfront, ?_⟩
            · simp [closing]
            · rwa [← head?_withLineEnds_iff ends hdot]
            · rwa [← atLineEnd_withLineEnds]
          rw [hfound] at hread
          cases hread

end WithLineEnds

section Complete

variable (settings : Settings)

/-- Completion takes up an import that the text starts with, and goes on behind it. -/
theorem completeImports_of_importAt? {text path after : List Char}
    (h : importAt? text = some (path, after)) :
    completeImports settings text =
      { text := opening ++ completedPath settings path ++ closing ++
          (completeImports settings after).text
        imports := (completeImports settings after).imports +
          if settings.completes path then 1 else 0 } := by
  simp only [completeImports, ofText_of_importAt? h, List.flatMap_cons, List.countP_cons,
    complete_imported]
  rfl

/-- Completion leaves a character that begins no import. -/
theorem completeImports_cons_of_none {c : Char} {rest : List Char}
    (h : importAt? (c :: rest) = none) :
    completeImports settings (c :: rest) =
      { text := c :: (completeImports settings rest).text
        imports := (completeImports settings rest).imports } := by
  simp [completeImports, ofText_cons_of_none h, Segment.complete, Segment.text,
    Segment.isCompleted]

/-- A line end is left. -/
theorem completeImports_lineEnd_append (lineEnd : LineEnd) (rest : List Char) :
    completeImports settings (lineEnd.text ++ rest) =
      { text := lineEnd.text ++ (completeImports settings rest).text
        imports := (completeImports settings rest).imports } := by
  have hstep {c : Char} (hc : EndsLine c) (rest : List Char) :
      completeImports settings (c :: rest) =
        { text := c :: (completeImports settings rest).text
          imports := (completeImports settings rest).imports } := by
    apply completeImports_cons_of_none
    rcases hc with rfl | rfl <;> rfl
  cases lineEnd with
  | lineFeed => exact hstep (.inr rfl) rest
  | both =>
      show completeImports settings ('\r' :: '\n' :: rest) = _
      rw [hstep (.inl rfl), hstep (.inr rfl)]
      rfl
  | carriageReturn => exact hstep (.inl rfl) rest

/-- An unbroken extension leaves the line ends of a text as they are. -/
theorem filter_endsLine_completeImports (hext : Unbroken settings.extension.toList)
    (content : List Char) :
    (completeImports settings content).text.filter EndsLine = content.filter EndsLine := by
  have hnone : settings.extension.toList.filter EndsLine = [] := by
    rw [List.filter_eq_nil_iff]
    intro c hc
    simpa using hext c hc
  have hpiece (segment : Segment) :
      (segment.complete settings).text.filter EndsLine = segment.text.filter EndsLine := by
    cases segment with
    | other c => rfl
    | imported path =>
        rw [complete_imported, completedPath]
        split
        · simp [Segment.text, hnone]
        · rfl
  calc
    (completeImports settings content).text.filter EndsLine =
        (ofText content).flatMap fun segment => segment.text.filter EndsLine := by
      simp only [completeImports, List.filter_flatMap, hpiece]
    _ = content.filter EndsLine := by
      rw [← List.filter_flatMap, flatMap_text_ofText]

variable {settings} (hext : Unbroken settings.extension.toList)
  (hprefixes : ∀ start ∈ settings.excludedPrefixes, Unbroken start.toList)

include hext hprefixes

/-- The line ends within a path do not decide whether it gets the extension. -/
theorem completes_withLineEnds (ends : Nat → LineEnd) (path : List Char) :
    settings.completes (withLineEnds ends path) = settings.completes path := by
  rw [Bool.eq_iff_iff, Settings.completes_iff, Settings.completes_iff,
    suffix_withLineEnds_iff ends hext]
  apply and_congr_right'
  constructor
  · intro h start hstart
    rw [← prefix_withLineEnds_iff ends (hprefixes start hstart)]
    exact h start hstart
  · intro h start hstart
    rw [prefix_withLineEnds_iff ends (hprefixes start hstart)]
    exact h start hstart

theorem completedPath_withLineEnds (ends : Nat → LineEnd) (path : List Char) :
    completedPath settings (withLineEnds ends path) =
      withLineEnds ends (completedPath settings path) := by
  unfold completedPath
  rw [completes_withLineEnds hext hprefixes]
  split
  · rw [withLineEnds_append, withLineEnds_of_unbroken _ hext]
  · rfl

omit hprefixes in
theorem count_newline_completedPath (path : List Char) :
    (completedPath settings path).count '\n' = path.count '\n' := by
  unfold completedPath
  split
  · rw [List.count_append, List.count_eq_zero.2 hext.newline_notMem, Nat.add_zero]
  · rfl

/-- Completing a text with line ends of choice is completing the text and choosing the same
line ends after that. -/
theorem completeImports_withLineEnds_eq (ends : Nat → LineEnd) (content : List Char) :
    completeImports settings (withLineEnds ends content) =
      { text := withLineEnds ends (completeImports settings content).text
        imports := (completeImports settings content).imports } := by
  induction content using ofText.induct generalizing ends with
  | case1 => simp [completeImports, ofText]
  | case2 c rest path after hread ih =>
      have hlater : importAt? (withLineEnds ends (c :: rest)) =
          some (withLineEnds ends path,
            withLineEnds (fun j => ends (path.count '\n' + j)) after) := by
        rw [importAt?_withLineEnds, hread]
        rfl
      rw [completeImports_of_importAt? settings hlater, completeImports_of_importAt? settings hread,
        ih, completes_withLineEnds hext hprefixes, completedPath_withLineEnds hext hprefixes]
      simp only [List.append_assoc]
      rw [withLineEnds_append_of_unbroken ends unbroken_opening, withLineEnds_append,
        count_newline_completedPath hext,
        withLineEnds_append_of_unbroken _ unbroken_closing]
  | case3 c rest hnone ih =>
      rw [completeImports_cons_of_none settings hnone]
      by_cases hc : c = '\n'
      · subst hc
        rw [withLineEnds_newline, completeImports_lineEnd_append, ih, withLineEnds_newline]
      · have hlater : importAt? (c :: withLineEnds ends rest) = none := by
          rw [← withLineEnds_cons_of_ne ends hc, importAt?_withLineEnds, hnone]
          rfl
        rw [withLineEnds_cons_of_ne ends hc, completeImports_cons_of_none settings hlater, ih,
          withLineEnds_cons_of_ne ends hc]

end Complete

/-- Line ends do not matter to completion, and are kept by it.  Where no line ends in the
extension or in an excluded prefix, and each line feed of a text is written as a line feed, a
carriage return or both, the completed text is the one that was completed before with the same
choice of line ends, and as many imports were completed.  The choices fall on the same line
ends, for completion leaves these as they are, in number and order. -/
theorem completeImports_withLineEnds (settings : Settings) (ends : Nat → LineEnd)
    (content : List Char) (hext : Unbroken settings.extension.toList)
    (hprefixes : ∀ start ∈ settings.excludedPrefixes, Unbroken start.toList) :
    completeImports settings (withLineEnds ends content) =
        { text := withLineEnds ends (completeImports settings content).text
          imports := (completeImports settings content).imports } ∧
      (completeImports settings content).text.filter EndsLine = content.filter EndsLine :=
  ⟨completeImports_withLineEnds_eq hext hprefixes ends content,
    filter_endsLine_completeImports settings hext content⟩

/-- A text with both kinds of line ends, one of them within a path. -/
theorem completeImports_withLineEnds_mixed :
    let ends : Nat → LineEnd := fun j => if j = 1 then .carriageReturn else .both
    let content := "import a from './a';\nimport b from './b\n/c';\n".toList
    let completion := completeImports {} (withLineEnds ends content)
    completion.text = "import a from './a.js';\r\nimport b from './b\r/c.js';\r\n".toList ∧
      completion.imports = 2 ∧
      (completeImports {} content).text.filter EndsLine = ['\n', '\n', '\n'] := by
  intro ends content completion
  have hext : Unbroken (({} : Settings).extension.toList) := by decide
  have hprefixes : ∀ start ∈ ({} : Settings).excludedPrefixes, Unbroken start.toList := by decide
  obtain ⟨hsame, hends⟩ := completeImports_withLineEnds {} ends content hext hprefixes
  have htext : (completeImports {} content).text =
      "import a from './a.js';\nimport b from './b\n/c.js';\n".toList := by
    decide +kernel
  have himports : (completeImports {} content).imports = 2 := by decide +kernel
  refine ⟨?_, ?_, ?_⟩
  · show (completeImports {} (withLineEnds ends content)).text = _
    rw [hsame, htext]
    decide +kernel
  · show (completeImports {} (withLineEnds ends content)).imports = _
    rw [hsame, himports]
  · rw [hends]
    decide +kernel

end ExplicitImports
