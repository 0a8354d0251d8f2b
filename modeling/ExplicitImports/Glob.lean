/-!
# Glob patterns

A pattern is written with `?` for one character, `*` for any run of characters,
`[...]` and `[!...]` for classes, and `**` standing alone between slashes for any
number of directories.  `Pattern.parse` reads the written form, or says where it
is wrong; `Pattern.accepts` is the meaning of a pattern.  `Pattern.isMatch` is the
same test on all ends of the name at once (`isMatch_eq_accepts`), which keeps its
cost down to the product of the two lengths.
-/

namespace ExplicitImports.Glob

/-- One element of a pattern. -/
inductive Token where
  | char (c : Char)
  | anyChar
  | anySequence
  /-- Nothing, whatever ends in a slash, or all that is left. -/
  | anyDirectories
  | within (ranges : List (Char × Char))
  | outside (ranges : List (Char × Char))
  deriving DecidableEq, Repr

/-- What is wrong with a written pattern. -/
inductive Fault where
  /-- Three stars in a row. -/
  | wildcards
  /-- Two stars that do not stand alone between slashes. -/
  | recursiveWildcards
  /-- A bracket that opens no class. -/
  | invalidRange
  deriving DecidableEq, Repr

def Fault.message : Fault → String
  | .wildcards => "wildcards are either regular \x60*\x60 or recursive \x60**\x60"
  | .recursiveWildcards => "recursive wildcards must form a single path component"
  | .invalidRange => "invalid range pattern"

/-- A fault and the character it was found at. -/
structure PatternError where
  position : Nat
  fault : Fault
  deriving DecidableEq, Repr

def PatternError.message (e : PatternError) : String :=
  "Pattern syntax error near position " ++ toString e.position ++ ": " ++ e.fault.message

abbrev Pattern := List Token

/-- The ranges of a class; a single character is a range of its own. -/
def ranges : List Char → List (Char × Char)
  | low :: '-' :: high :: rest => (low, high) :: ranges rest
  | c :: rest => (c, c) :: ranges rest
  | [] => []

/-- The text up to the first closing bracket and the text after it. -/
def splitAtBracket : List Char → Option (List Char × List Char)
  | [] => none
  | ']' :: rest => some ([], rest)
  | c :: rest => (splitAtBracket rest).map fun (inside, after) => (c :: inside, after)

theorem length_splitAtBracket {text inside after : List Char}
    (h : splitAtBracket text = some (inside, after)) : after.length < text.length := by
  fun_induction splitAtBracket text generalizing inside with
  | case1 => cases h
  | case2 rest =>
      cases h
      simp
  | case3 c rest _ ih =>
      simp only [Option.map_eq_some_iff, Prod.exists, Prod.mk.injEq] at h
      obtain ⟨inside', after', hsplit, -, rfl⟩ := h
      have := ih hsplit
      simp only [List.length_cons]
      omega

/-- The class that opens with a bracket before a text, and what follows it.  The
first character of a class never closes it. -/
def readClass : List Char → Option (Token × List Char)
  | ['!'] => none
  | '!' :: c :: rest => do
      let (inside, after) ← splitAtBracket rest
      return (.outside (ranges (c :: inside)), after)
  | c :: rest => do
      let (inside, after) ← splitAtBracket rest
      return (.within (ranges (c :: inside)), after)
  | [] => none

theorem length_readClass {text after : List Char} {token : Token}
    (h : readClass text = some (token, after)) : after.length < text.length := by
  unfold readClass at h
  split at h
  · cases h
  · rename_i c rest
    cases hsplit : splitAtBracket rest with
    | none => simp [hsplit] at h
    | some found =>
        simp [hsplit] at h
        have := @length_splitAtBracket rest found.1 found.2 hsplit
        simp only [← h.2, List.length_cons]
        omega
  · rename_i c rest _ _
    cases hsplit : splitAtBracket rest with
    | none => simp [hsplit] at h
    | some found =>
        simp [hsplit] at h
        have := @length_splitAtBracket rest found.1 found.2 hsplit
        simp only [← h.2, List.length_cons]
        omega
  · cases h

/-- Read a pattern from a position on, knowing the character before it. -/
def parseFrom (position : Nat) (before : Option Char) (text : List Char) :
    Except PatternError Pattern :=
  match text with
  | [] => .ok []
  | '?' :: rest => do
      return .anyChar :: (← parseFrom (position + 1) (some '?') rest)
  | '*' :: '*' :: '*' :: _ => .error ⟨position + 2, .wildcards⟩
  | '*' :: '*' :: rest =>
      if before = none ∨ before = some '/' then
        match rest with
        | [] => .ok [.anyDirectories]
        | '/' :: rest => do
            return .anyDirectories :: (← parseFrom (position + 3) (some '/') rest)
        | _ :: _ => .error ⟨position + 2, .recursiveWildcards⟩
      else .error ⟨position - 1, .recursiveWildcards⟩
  | '*' :: rest => do
      return .anySequence :: (← parseFrom (position + 1) (some '*') rest)
  | '[' :: rest =>
      match h : readClass rest with
      | none => .error ⟨position, .invalidRange⟩
      | some (token, after) => do
          let used := rest.length - after.length
          return token :: (← parseFrom (position + 1 + used) (some ']') after)
  | c :: rest => do
      return .char c :: (← parseFrom (position + 1) (some c) rest)
termination_by text.length
decreasing_by
  all_goals simp_wf
  all_goals try have := length_readClass h
  all_goals omega

namespace Pattern

/-- Read a written pattern. -/
def parse (text : String) : Except PatternError Pattern :=
  parseFrom 0 none text.toList

end Pattern

/-- Does an element that stands for one character stand for this one? -/
def Token.admits : Token → Char → Bool
  | .char c, d => c = d
  | .anyChar, _ => true
  | .within ranges, c => ranges.any fun (low, high) => low ≤ c ∧ c ≤ high
  | .outside ranges, c => !ranges.any fun (low, high) => low ≤ c ∧ c ≤ high
  | .anySequence, _ => false
  | .anyDirectories, _ => false

/-- Every end of a name, from the whole name to nothing. -/
def ends : List Char → List (List Char)
  | [] => [[]]
  | c :: rest => (c :: rest) :: ends rest

@[simp] theorem head?_ends (name : List Char) : (ends name).head? = some name := by
  cases name <;> rfl

/-- The ends of a name right after a slash, and the empty one. -/
def directoryEnds : List Char → List (List Char)
  | [] => [[]]
  | c :: rest => if c = '/' then rest :: directoryEnds rest else directoryEnds rest

namespace Pattern

/-- Does a pattern stand for exactly this name? -/
def accepts : Pattern → List Char → Bool
  | [], name => name.isEmpty
  | .anySequence :: rest, name => (ends name).any (accepts rest)
  | .anyDirectories :: rest, name =>
      accepts rest name || (directoryEnds name).any (accepts rest)
  | token :: rest, name =>
      match name with
      | [] => false
      | c :: name => token.admits c && accepts rest name

/-- One column of the test: from the answers of the later elements on every end
of a name, the answers with one more element before them. -/
def column (token : Token) : List Char → List Bool → List Bool
  | c :: name, here :: later =>
      let rest := column token name later
      (match token with
        | .anySequence => here || rest.headD false
        | .anyDirectories => here || directories (c :: name) (here :: later)
        | _ => token.admits c && later.headD false) :: rest
  | _, here :: _ =>
      [match token with
        | .anySequence => here
        | .anyDirectories => here
        | _ => false]
  | _, [] => []
where
  /-- Is one of the answers right after a slash, or the last one, positive? -/
  directories : List Char → List Bool → Bool
    | c :: name, _ :: later => (c = '/' && later.headD false) || directories name later
    | _, later => later.headD false

/-- The answers of a pattern on every end of a name. -/
def table (pattern : Pattern) (name : List Char) : List Bool :=
  pattern.foldr (fun token later => column token name later) ((ends name).map List.isEmpty)

/-- Does a pattern stand for exactly this name? -/
def isMatch (pattern : Pattern) (name : String) : Bool :=
  (pattern.table name.toList).headD false

theorem accepts_single {token : Token} (rest : Pattern)
    (hsequence : token ≠ .anySequence) (hdirectories : token ≠ .anyDirectories)
    (name : List Char) :
    accepts (token :: rest) name = match name with
      | [] => false
      | c :: name => token.admits c && accepts rest name := by
  cases token <;> simp_all [accepts]

theorem directories_eq (rest : Pattern) (name : List Char) :
    column.directories name ((ends name).map (accepts rest)) =
      (directoryEnds name).any (accepts rest) := by
  induction name with
  | nil => simp [column.directories, ends, directoryEnds]
  | cons c name ih =>
      by_cases hc : c = '/' <;>
        simp [column.directories, ends, directoryEnds, hc, ih]

/-- A column holds the answers of the longer pattern. -/
theorem column_eq (token : Token) (rest : Pattern) (name : List Char) :
    column token name ((ends name).map (accepts rest)) =
      (ends name).map (accepts (token :: rest)) := by
  induction name with
  | nil =>
      cases token <;> simp [column, ends, accepts, directoryEnds]
  | cons c name ih =>
      simp only [ends, List.map_cons, column, ih]
      congr 1
      cases token with
      | anySequence => simp [accepts, ends]
      | anyDirectories =>
          have := directories_eq rest (c :: name)
          simp only [ends, List.map_cons] at this
          simp only [this]
          simp [accepts]
      | _ => simp [accepts_single]

theorem table_eq (pattern : Pattern) (name : List Char) :
    pattern.table name = (ends name).map (accepts pattern) := by
  induction pattern with
  | nil =>
      unfold table
      simp only [List.foldr_nil]
      rfl
  | cons token rest ih =>
      unfold table at ih ⊢
      rw [List.foldr_cons, ih, column_eq]

/-- The table answers what the meaning of the pattern says. -/
theorem isMatch_eq_accepts (pattern : Pattern) (name : String) :
    pattern.isMatch name = accepts pattern name.toList := by
  unfold isMatch
  simp [table_eq]

end Pattern

end ExplicitImports.Glob
