import ExplicitImports.Settings

/-!
# Completing import paths

An import stands in a text where `from '`, a path that starts with a dot and runs
to the next quote, and `';` at the end of a line follow each other.  A text is
cut into its imports, found from the left, and its other characters; completion
puts the extension behind the path of every import that the settings complete
and leaves everything else as it is.
-/

namespace ExplicitImports

/-- A piece of a text. -/
inductive Segment where
  /-- A character outside all imports. -/
  | other (c : Char)
  /-- An import, from its `from` to its semicolon. -/
  | imported (path : List Char)
  deriving DecidableEq, Repr

namespace Segment

/-- What stands before the path of an import. -/
def opening : List Char := ['f', 'r', 'o', 'm', ' ', '\'']

/-- What stands behind the path of an import. -/
def closing : List Char := ['\'', ';']

def text : Segment → List Char
  | .other c => [c]
  | .imported path => opening ++ path ++ closing

/-- Is this what may follow a line: nothing, or one of the two line-end characters? -/
def atLineEnd : List Char → Bool
  | [] => true
  | c :: _ => c = '\n' || c = '\r'

/-- The path of the import that a text starts with, and what follows the import. -/
def importAt? : List Char → Option (List Char × List Char)
  | 'f' :: 'r' :: 'o' :: 'm' :: ' ' :: '\'' :: '.' :: inside =>
      match inside.dropWhile (· ≠ '\'') with
      | '\'' :: ';' :: after =>
          if atLineEnd after then some ('.' :: inside.takeWhile (· ≠ '\''), after) else none
      | _ => none
  | _ => none

/-- An import is what it was read from. -/
theorem eq_of_importAt? {text path after : List Char} (h : importAt? text = some (path, after)) :
    text = (Segment.imported path).text ++ after := by
  unfold importAt? at h
  split at h
  · rename_i inside
    split at h
    · rename_i rest hrest
      split at h
      · simp only [Option.some.injEq, Prod.mk.injEq] at h
        obtain ⟨rfl, rfl⟩ := h
        have := List.takeWhile_append_dropWhile (p := (· ≠ '\'')) (l := inside)
        rw [hrest] at this
        simpa [Segment.text, opening, closing] using this.symm
      · cases h
    · cases h
  · cases h

theorem length_lt_of_importAt? {text path after : List Char}
    (h : importAt? text = some (path, after)) : after.length < text.length := by
  rw [eq_of_importAt? h]
  simp [Segment.text, opening]
  omega

/-- The pieces of a text. -/
def ofText (text : List Char) : List Segment :=
  match text with
  | [] => []
  | c :: rest =>
      match _h : importAt? (c :: rest) with
      | some (path, after) => .imported path :: ofText after
      | none => .other c :: ofText rest
termination_by text.length
decreasing_by
  · exact length_lt_of_importAt? _h
  · simp

/-- Nothing of a text is lost or changed by cutting it. -/
theorem flatMap_text_ofText (content : List Char) :
    (ofText content).flatMap Segment.text = content := by
  fun_induction ofText content with
  | case1 => rfl
  | case2 c rest path after h ih => simp [ih, eq_of_importAt? h]
  | case3 c rest h ih => simp [ih, Segment.text]

/-- Does the extension go behind the path of this piece? -/
def isCompleted (settings : Settings) : Segment → Bool
  | .other _ => false
  | .imported path => settings.completes path

/-- The piece with the extension behind its path, if it is to get one. -/
def complete (settings : Settings) : Segment → Segment
  | .other c => .other c
  | .imported path =>
      if settings.completes path then .imported (path ++ settings.extension.toList)
      else .imported path

end Segment

/-- A text after completion, and how many imports were completed in it. -/
@[ext]
structure Completion where
  text : List Char
  imports : Nat
  deriving DecidableEq, Repr

/-- Did anything change? -/
def Completion.changesText (completion : Completion) : Bool :=
  0 < completion.imports

theorem Completion.changesText_iff {completion : Completion} :
    completion.changesText = true ↔ 0 < completion.imports :=
  decide_eq_true_iff

/-- Complete the imports of a text. -/
def completeImports (settings : Settings) (content : List Char) : Completion :=
  let segments := Segment.ofText content
  { text := segments.flatMap fun segment => (segment.complete settings).text
    imports := segments.countP (Segment.isCompleted settings) }

/-- Where nothing was completed the text is the one that was given. -/
theorem text_completeImports_of_not_changesText {settings : Settings} {content : List Char}
    (h : (completeImports settings content).changesText = false) :
    (completeImports settings content).text = content := by
  have hnone : (Segment.ofText content).countP (Segment.isCompleted settings) = 0 := by
    simpa [Completion.changesText, completeImports] using h
  rw [List.countP_eq_zero] at hnone
  have hsame : ∀ segment ∈ Segment.ofText content,
      (segment.complete settings).text = segment.text := by
    intro segment hsegment
    have := hnone segment hsegment
    cases segment with
    | other c => rfl
    | imported path =>
        simp only [Segment.isCompleted, Bool.not_eq_true] at this
        simp [Segment.complete, this]
  calc
    (completeImports settings content).text = (Segment.ofText content).flatMap Segment.text := by
      unfold completeImports
      simp only [List.flatMap_def]
      rw [List.map_congr_left hsame]
    _ = content := Segment.flatMap_text_ofText content

end ExplicitImports
