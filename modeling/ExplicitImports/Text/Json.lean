/-!
# JSON documents

The values a report needs and their written form: members in the order given,
two spaces for each level, one item to a line, and nothing between the brackets
of an empty list or object.  In a string only the quote, the backslash and the
characters below U+0020 are escaped.
-/

namespace ExplicitImports

/-- A JSON value whose numbers are natural. -/
inductive Json where
  | bool (value : Bool)
  | number (value : Nat)
  | string (value : String)
  | array (items : List Json)
  | object (members : List (String × Json))

namespace Json

/-- A character inside a quoted string: the short escape where there is one,
a four-digit escape for the other control characters, else the character. -/
def escape (c : Char) : List Char :=
  if c = '"' then ['\\', '"']
  else if c = '\\' then ['\\', '\\']
  else if c = '\x08' then ['\\', 'b']
  else if c = '\x0c' then ['\\', 'f']
  else if c = '\n' then ['\\', 'n']
  else if c = '\r' then ['\\', 'r']
  else if c = '\t' then ['\\', 't']
  else if c.toNat < 0x20 then
    ['\\', 'u', '0', '0', (c.toNat / 16).digitChar, (c.toNat % 16).digitChar]
  else [c]

/-- A string between quotes. -/
def quote (s : String) : List Char :=
  '"' :: (s.toList.flatMap escape ++ ['"'])

/-- The start of a line at a depth. -/
def newline (depth : Nat) : List Char :=
  '\n' :: List.replicate (2 * depth) ' '

mutual

/-- A value that stands at a depth; its first line is not indented. -/
def render (depth : Nat) : Json → List Char
  | .bool true => ['t', 'r', 'u', 'e']
  | .bool false => ['f', 'a', 'l', 's', 'e']
  | .number n => Nat.toDigits 10 n
  | .string s => quote s
  | .array [] => ['[', ']']
  | .array (item :: items) =>
      '[' :: newline (depth + 1) ++ render (depth + 1) item
        ++ renderItems (depth + 1) items ++ newline depth ++ [']']
  | .object [] => ['{', '}']
  | .object ((key, value) :: members) =>
      '{' :: newline (depth + 1) ++ quote key ++ [':', ' '] ++ render (depth + 1) value
        ++ renderMembers (depth + 1) members ++ newline depth ++ ['}']

/-- The items after the first, each on a line of its own after a comma. -/
def renderItems (depth : Nat) : List Json → List Char
  | [] => []
  | item :: items =>
      ',' :: newline depth ++ render depth item ++ renderItems depth items

/-- The members after the first, each on a line of its own after a comma. -/
def renderMembers (depth : Nat) : List (String × Json) → List Char
  | [] => []
  | (key, value) :: members =>
      ',' :: newline depth ++ quote key ++ [':', ' '] ++ render depth value
        ++ renderMembers depth members

end

/-- The document that holds a value. -/
def pretty (value : Json) : List Char :=
  render 0 value

end Json

end ExplicitImports
