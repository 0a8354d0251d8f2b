import ExplicitImports.Text.ControlSequence

/-!
# Messages

What the command line has to say about itself: help, and errors in the arguments.
Parts of a message stand out.  A message is shown in color, with an escape
sequence before each such part and one after it; or plainly, and then a part that
repeats an argument brings no control sequences of its own along.
-/

namespace ExplicitImports.Cli

/-- How a part of a message stands out. -/
inductive Emphasis where
  | heading
  /-- Text to be typed as it stands. -/
  | literal
  /-- The word that opens an error. -/
  | error
  /-- What is wrong with the arguments. -/
  | invalid
  deriving DecidableEq, Repr

/-- The escape sequences that an emphasis starts with. -/
def Emphasis.start : Emphasis → String
  | .heading => "\x1b[1m\x1b[4m"
  | .literal => "\x1b[1m"
  | .error => "\x1b[1m\x1b[31m"
  | .invalid => "\x1b[33m"

/-- A part of a message. -/
structure Part where
  text : String
  emphasis : Option Emphasis := none
  deriving DecidableEq, Repr

namespace Part

def colored (part : Part) : String :=
  match part.emphasis with
  | none => part.text
  | some emphasis => emphasis.start ++ part.text ++ "\x1b[0m"

def plain (part : Part) : String :=
  ControlSequence.stripped part.text

end Part

abbrev Message := List Part

namespace Message

/-- A text of which nothing stands out. -/
def text (text : String) : Message :=
  [{ text }]

/-- A text that stands out as a whole. -/
def marked (emphasis : Emphasis) (text : String) : Message :=
  [{ text, emphasis := some emphasis }]

def colored (message : Message) : String :=
  String.join (message.map Part.colored)

def plain (message : Message) : String :=
  String.join (message.map Part.plain)

def shown (message : Message) (color : Bool) : String :=
  if color then message.colored else message.plain

/-- How many columns a message of one line takes. -/
def width (message : Message) : Nat :=
  message.foldl (fun columns part => columns + part.text.length) 0

end Message

end ExplicitImports.Cli
