import ExplicitImports.Proofs.Import.Insertion

/-!
# Completing twice

An extension without a quote neither makes an import nor destroys one, whatever
else it holds.  So the scan of a completed text finds the pieces of the first
text again, completed (`ofText_text_completeImports`), and two completions with
one extension are one (`completeImports_completeImports`).
-/

namespace ExplicitImports

open Segment

namespace Segment

/-- These pieces are the ones that the scan cuts their own text into. -/
inductive Scanned : List Segment → Prop
  | nil : Scanned []
  | other {c : Char} {rest : List Segment}
      (hnone : importAt? (c :: rest.flatMap Segment.text) = none) (hrest : Scanned rest) :
      Scanned (.other c :: rest)
  | imported {path : List Char} {rest : List Segment} (hdot : path.head? = some '.')
      (hquote : '\'' ∉ path) (hend : atLineEnd (rest.flatMap Segment.text) = true)
      (hrest : Scanned rest) : Scanned (.imported path :: rest)

theorem scanned_ofText (content : List Char) : Scanned (ofText content) := by
  fun_induction ofText content with
  | case1 => exact .nil
  | case2 c rest path after h ih =>
      obtain ⟨-, hdot, hquote, hend⟩ := importAt?_eq_some_iff.1 h
      exact .imported hdot hquote (by rwa [flatMap_text_ofText]) ih
  | case3 c rest h ih => exact .other (by rwa [flatMap_text_ofText]) ih

theorem ofText_flatMap_text {segments : List Segment} (h : Scanned segments) :
    ofText (segments.flatMap Segment.text) = segments := by
  induction h with
  | nil => simp [ofText]
  | @other c rest hnone hrest ih =>
      rw [List.flatMap_cons]
      exact (ofText_cons_of_none hnone).trans (by rw [ih])
  | @imported path rest hdot hquote hend hrest ih =>
      have hread : importAt? ((Segment.imported path :: rest).flatMap Segment.text) =
          some (path, rest.flatMap Segment.text) :=
        importAt?_eq_some_iff.2 ⟨rfl, hdot, hquote, hend⟩
      rw [ofText_of_importAt? hread, ih]

/-- Pieces of a scanned text are characters up to its end or to the next import. -/
theorem Scanned.exists_plain {segments : List Segment} (h : Scanned segments) :
    ∃ (plain : List Char) (tail : List Segment), segments = plain.map Segment.other ++ tail ∧
      (tail = [] ∨ ∃ path rest, tail = .imported path :: rest ∧ path.head? = some '.') := by
  induction h with
  | nil => exact ⟨[], [], rfl, .inl rfl⟩
  | @other c rest hnone hrest ih =>
      obtain ⟨plain, tail, rfl, htail⟩ := ih
      exact ⟨c :: plain, tail, rfl, htail⟩
  | @imported path rest hdot hquote hend hrest ih =>
      exact ⟨[], _, rfl, .inr ⟨path, rest, rfl, hdot⟩⟩

section Complete

variable (settings : Settings)

theorem flatMap_text_map_other (plain : List Char) :
    (plain.map Segment.other).flatMap Segment.text = plain := by
  simp [List.flatMap_map, Segment.text]

theorem map_complete_map_other (plain : List Char) :
    (plain.map Segment.other).map (Segment.complete settings) = plain.map Segment.other := by
  simp [Segment.complete]

/-- The path of an import after completion. -/
def completedPath (path : List Char) : List Char :=
  if settings.completes path then path ++ settings.extension.toList else path

theorem complete_imported (path : List Char) :
    (Segment.imported path).complete settings = .imported (completedPath settings path) := by
  simp only [Segment.complete, completedPath]
  split <;> rfl

theorem head?_completedPath {path : List Char} (hdot : path.head? = some '.') :
    (completedPath settings path).head? = some '.' := by
  obtain ⟨inside, rfl⟩ := List.head?_eq_some_iff.1 hdot
  unfold completedPath
  split <;> rfl

theorem quote_notMem_completedPath {path : List Char}
    (hext : '\'' ∉ settings.extension.toList) (hquote : '\'' ∉ path) :
    '\'' ∉ completedPath settings path := by
  unfold completedPath
  split
  · simp [hext, hquote]
  · exact hquote

/-- Completion leaves the first character of a text as it is. -/
theorem head?_flatMap_complete (segments : List Segment) :
    ((segments.map (Segment.complete settings)).flatMap Segment.text).head? =
      (segments.flatMap Segment.text).head? := by
  cases segments with
  | nil => rfl
  | cons segment rest =>
      cases segment with
      | other c => rfl
      | imported path =>
          rw [List.map_cons, complete_imported]
          rfl

theorem atLineEnd_flatMap_complete (segments : List Segment) :
    atLineEnd ((segments.map (Segment.complete settings)).flatMap Segment.text) =
      atLineEnd (segments.flatMap Segment.text) := by
  rw [Bool.eq_iff_iff, atLineEnd_iff, atLineEnd_iff, head?_flatMap_complete]

/-- A character that begins no import begins none after completion: an import that it
began would end before the next one, among characters that completion leaves as they are. -/
theorem importAt?_flatMap_complete {c : Char} {rest : List Segment} (hrest : Scanned rest)
    (hnone : importAt? (c :: rest.flatMap Segment.text) = none) :
    importAt? (c :: (rest.map (Segment.complete settings)).flatMap Segment.text) = none := by
  obtain ⟨plain, tail, rfl, rfl | ⟨path, rest, rfl, hdot⟩⟩ := hrest.exists_plain
  · rwa [List.append_nil, map_complete_map_other, ← List.append_nil (plain.map Segment.other)]
  · cases hread : importAt? (c :: ((plain.map Segment.other ++ Segment.imported path :: rest).map
        (Segment.complete settings)).flatMap Segment.text) with
    | none => rfl
    | some found =>
        exfalso
        obtain ⟨other, after⟩ := found
        rw [List.map_append, List.map_cons, complete_imported, map_complete_map_other,
          List.flatMap_append, flatMap_text_map_other, ← List.cons_append] at hread
        -- The next import still begins with an opening and a dot, so the one that would
        -- begin at `c` ends before it, within `plain`.
        have hstart : opening ++ ['.'] <+:
            (Segment.imported (completedPath settings path) ::
              rest.map (Segment.complete settings)).flatMap Segment.text := by
          obtain ⟨inside, hinside⟩ := List.head?_eq_some_iff.1 (head?_completedPath settings hdot)
          rw [hinside]
          exact ⟨inside ++ closing ++ _, by simp [Segment.text]; rfl⟩
        obtain ⟨between, hplain, hafter⟩ :=
          after_of_overlap hread (List.cons_ne_nil c plain) hstart
        obtain ⟨-, hdot', hquote', hend⟩ := importAt?_eq_some_iff.1 hread
        have hline : atLineEnd (between ++ (Segment.imported path :: rest).flatMap Segment.text) =
            true := by
          cases between with
          | nil =>
              rw [hafter] at hend
              exact absurd hend (by simp [Segment.text, opening, atLineEnd])
          | cons b between =>
              rw [hafter] at hend
              exact hend
        -- Then it began there before completion too.
        have hsome : importAt? (c :: (plain.map Segment.other ++
            Segment.imported path :: rest).flatMap Segment.text) =
              some (other, between ++ (Segment.imported path :: rest).flatMap Segment.text) := by
          refine importAt?_eq_some_iff.2 ⟨?_, hdot', hquote', hline⟩
          rw [List.flatMap_append, flatMap_text_map_other, ← List.cons_append, hplain]
          simp
        rw [hnone] at hsome
        cases hsome

/-- Completed pieces are again the pieces of their own text. -/
theorem Scanned.complete (hext : '\'' ∉ settings.extension.toList) {segments : List Segment}
    (h : Scanned segments) : Scanned (segments.map (Segment.complete settings)) := by
  induction h with
  | nil => exact .nil
  | @other c rest hnone hrest ih =>
      exact .other (importAt?_flatMap_complete settings hrest hnone) ih
  | @imported path rest hdot hquote hend hrest ih =>
      rw [List.map_cons, complete_imported]
      refine .imported (head?_completedPath settings hdot)
        (quote_notMem_completedPath settings hext hquote) ?_ ih
      rwa [atLineEnd_flatMap_complete]

end Complete

end Segment

/-- The scan of a completed text finds the pieces of the text, completed. -/
theorem ofText_text_completeImports {settings : Settings}
    (hext : '\'' ∉ settings.extension.toList) (content : List Char) :
    ofText (completeImports settings content).text =
      (ofText content).map (Segment.complete settings) := by
  have htext : (completeImports settings content).text =
      ((ofText content).map (Segment.complete settings)).flatMap Segment.text := by
    rw [List.flatMap_map]
    rfl
  rw [htext]
  exact ofText_flatMap_text ((scanned_ofText content).complete settings hext)

section Twice

variable {A B C : Settings}

/-- An import that the first settings have completed is complete to the second ones. -/
theorem completes_completedPath (hAB : B.extension = A.extension) (path : List Char) :
    B.completes (completedPath A path) = (!A.completes path && B.completes path) := by
  unfold completedPath
  cases hA : A.completes path with
  | false => simp
  | true =>
      have hsuffix : A.extension.toList.isSuffixOf (path ++ A.extension.toList) = true :=
        List.isSuffixOf_iff_suffix.2 (List.suffix_append _ _)
      simp [Settings.completes, hAB, hsuffix]

/-- Of two passes with one extension the first that completes an import is the last. -/
theorem complete_complete_imported (hAB : B.extension = A.extension) (path : List Char) :
    ((Segment.imported path).complete A).complete B =
      .imported (if A.completes path || B.completes path then path ++ A.extension.toList
        else path) := by
  rw [complete_imported, complete_imported]
  apply congrArg Segment.imported
  rw [completedPath, completes_completedPath hAB, completedPath, hAB]
  cases A.completes path <;> cases B.completes path <;> simp

theorem complete_complete_comm (hAB : B.extension = A.extension) (segment : Segment) :
    (segment.complete A).complete B = (segment.complete B).complete A := by
  cases segment with
  | other c => rfl
  | imported path =>
      rw [complete_complete_imported hAB, complete_complete_imported hAB.symm, hAB, Bool.or_comm]

theorem complete_complete (hAB : B.extension = A.extension) (hCA : C.extension = A.extension)
    (hC : ∀ path, C.completes path = (A.completes path || B.completes path))
    (segment : Segment) :
    (segment.complete A).complete B = segment.complete C := by
  cases segment with
  | other c => rfl
  | imported path =>
      rw [complete_complete_imported hAB, complete_imported, completedPath, hC, hCA]

/-- Each import is counted in one of the two passes at most. -/
theorem countP_isCompleted_map_complete (hAB : B.extension = A.extension)
    (hC : ∀ path, C.completes path = (A.completes path || B.completes path))
    (segments : List Segment) :
    segments.countP (Segment.isCompleted A) +
        (segments.map (Segment.complete A)).countP (Segment.isCompleted B) =
      segments.countP (Segment.isCompleted C) := by
  have hpiece (segment : Segment) :
      (if segment.isCompleted A then 1 else 0) +
          (if (segment.complete A).isCompleted B then 1 else 0) =
        if segment.isCompleted C then 1 else 0 := by
    cases segment with
    | other c => rfl
    | imported path =>
        rw [complete_imported]
        by_cases hA : A.completes path = true <;> by_cases hB : B.completes path = true <;>
          simp [Segment.isCompleted, completes_completedPath hAB, hC, hA, hB]
  induction segments with
  | nil => rfl
  | cons segment rest ih =>
      have := hpiece segment
      simp only [List.map_cons, List.countP_cons]
      omega

theorem text_completeImports_completeImports (hext : '\'' ∉ A.extension.toList)
    (content : List Char) :
    (completeImports B (completeImports A content).text).text =
      (ofText content).flatMap fun segment => ((segment.complete A).complete B).text := by
  show (ofText (completeImports A content).text).flatMap _ = _
  rw [ofText_text_completeImports hext, List.flatMap_map]

/-- Two passes with one extension do what settings do that complete what either does. -/
theorem completeImports_pair (hAB : B.extension = A.extension) (hCA : C.extension = A.extension)
    (hC : ∀ path, C.completes path = (A.completes path || B.completes path))
    (hext : '\'' ∉ A.extension.toList) (content : List Char) :
    (completeImports B (completeImports A content).text).text = (completeImports C content).text ∧
      (completeImports A content).imports +
          (completeImports B (completeImports A content).text).imports =
        (completeImports C content).imports := by
  constructor
  · rw [text_completeImports_completeImports hext]
    simp only [complete_complete hAB hCA hC]
    rfl
  · change _ + (ofText (completeImports A content).text).countP _ = (ofText content).countP _
    rw [ofText_text_completeImports hext]
    exact countP_isCompleted_map_complete hAB hC (ofText content)

end Twice

/-- Settings complete what one of two others with their extension completes if they
exclude what both exclude. -/
theorem Settings.completes_of_excludes {A B C : Settings} (hAB : B.extension = A.extension)
    (hCA : C.extension = A.extension)
    (hC : ∀ path, C.excludes path = (A.excludes path && B.excludes path)) (path : List Char) :
    C.completes path = (A.completes path || B.completes path) := by
  simp only [Settings.completes, hAB, hCA, hC]
  cases A.extension.toList.isSuffixOf path <;> cases A.excludes path <;>
    cases B.excludes path <;> rfl

/-- Completing with two settings of one extension, without a quote in it, is completing
with any settings of that extension that exclude what both exclude, and the imports of
the two passes add up.  So the order of the two does not matter, and a second pass with
the same settings finds nothing to do. -/
theorem completeImports_completeImports (A B : Settings) (content : List Char)
    (hAB : B.extension = A.extension) (hext : '\'' ∉ A.extension.toList) :
    (∀ C : Settings, C.extension = A.extension →
        (∀ path, C.excludes path = (A.excludes path && B.excludes path)) →
        (completeImports B (completeImports A content).text).text =
            (completeImports C content).text ∧
          (completeImports A content).imports +
              (completeImports B (completeImports A content).text).imports =
            (completeImports C content).imports) ∧
      (completeImports B (completeImports A content).text).text =
        (completeImports A (completeImports B content).text).text ∧
      (completeImports A (completeImports A content).text).imports = 0 ∧
      (completeImports A (completeImports A content).text).changesText = false ∧
      (completeImports A (completeImports A content).text).text =
        (completeImports A content).text := by
  have hself : ∀ path, A.completes path = (A.completes path || A.completes path) := by
    simp
  obtain ⟨htext, himports⟩ := completeImports_pair rfl rfl hself hext content
  have hzero : (completeImports A (completeImports A content).text).imports = 0 := by
    omega
  refine ⟨fun C hCA hC => ?_, ?_, hzero, by simp [Completion.changesText, hzero], htext⟩
  · exact completeImports_pair hAB hCA (Settings.completes_of_excludes hAB hCA hC) hext content
  · rw [text_completeImports_completeImports hext,
      text_completeImports_completeImports (by rwa [hAB])]
    simp only [complete_complete_comm hAB]

/-- Two passes that exclude different directories meet in what both exclude. -/
theorem completeImports_completeImports_vendor :
    let A : Settings := { excludedPrefixes := ["./v", "./w"] }
    let B : Settings := { excludedPrefixes := ["./v"] }
    let content := "import a from './v/a';\nimport b from './w/b';\r\nimport c from './c';".toList
    let first := completeImports A content
    let second := completeImports B first.text
    first.imports = 1 ∧ second.imports = 1 ∧ (completeImports B content).imports = 2 ∧
      second.text = (completeImports B content).text ∧
      second.text = (completeImports A (completeImports B content).text).text ∧
      completeImports A first.text = { text := first.text, imports := 0 } := by
  intro A B content first second
  have hext : '\'' ∉ A.extension.toList := by decide
  have hexcludes : ∀ path, B.excludes path = (A.excludes path && B.excludes path) := by
    intro path
    simp only [A, B, Settings.excludes, List.any_cons, List.any_nil]
    cases "./v".toList.isPrefixOf path <;> simp
  obtain ⟨hC, hcomm, hzero, -, hsame⟩ := completeImports_completeImports A B content rfl hext
  obtain ⟨htext, hsum⟩ := hC B rfl hexcludes
  have hfirst : first.imports = 1 := by decide +kernel
  have hboth : (completeImports B content).imports = 2 := by decide +kernel
  have hsecond : first.imports + second.imports = (completeImports B content).imports := hsum
  refine ⟨hfirst, by omega, hboth, htext, hcomm, ?_⟩
  rw [← hzero]
  exact congrArg (Completion.mk · _) hsame

end ExplicitImports
