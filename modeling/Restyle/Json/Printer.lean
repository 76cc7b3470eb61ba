import Restyle.Json.Value

/-!
# Writing JSON

`compact` writes a value without white space, `pretty` one item a line with two
spaces for each level.  Texts are written as they are but for quotation marks,
backslashes and control characters.
-/

namespace Restyle.Json

/-- A character as it is written in a string. -/
def escapeChar (c : Char) : List Char :=
  if c == '"' || c == '\\' then ['\\', c]
  else if c == '\x08' then ['\\', 'b']
  else if c == '\x0c' then ['\\', 'f']
  else if c == '\n' then ['\\', 'n']
  else if c == '\r' then ['\\', 'r']
  else if c == '\t' then ['\\', 't']
  else if c.toNat < 0x20 then
    ['\\', 'u', '0', '0', Nat.digitChar (c.toNat / 16), Nat.digitChar (c.toNat % 16)]
  else [c]

def stringText (s : String) : List Char :=
  '"' :: s.toList.flatMap escapeChar ++ ['"']

mutual

/-- The text of a value without white space. -/
def compactText : Json → List Char
  | .null => ['n', 'u', 'l', 'l']
  | .boolean b => if b then ['t', 'r', 'u', 'e'] else ['f', 'a', 'l', 's', 'e']
  | .integer n => integerText n
  | .double n => doubleText n
  | .string s => stringText s
  | .array [] => ['[', ']']
  | .array (v :: vs) => '[' :: compactText v ++ compactItems vs ++ [']']
  | .object [] => ['\x7b', '\x7d']
  | .object ((k, v) :: ms) =>
    '\x7b' :: stringText k ++ ':' :: compactText v ++ compactMembers ms ++ ['\x7d']

/-- Further items of an array, each behind a comma. -/
def compactItems : List Json → List Char
  | [] => []
  | v :: vs => ',' :: compactText v ++ compactItems vs

/-- Further members of an object, each behind a comma. -/
def compactMembers : List (String × Json) → List Char
  | [] => []
  | (k, v) :: ms => ',' :: stringText k ++ ':' :: compactText v ++ compactMembers ms

end

/-- The start of a line at some depth. -/
def newline (depth : Nat) : List Char :=
  '\n' :: List.replicate (2 * depth) ' '

mutual

/-- The text of a value at some depth, one item a line. -/
def prettyText (depth : Nat) : Json → List Char
  | .null => ['n', 'u', 'l', 'l']
  | .boolean b => if b then ['t', 'r', 'u', 'e'] else ['f', 'a', 'l', 's', 'e']
  | .integer n => integerText n
  | .double n => doubleText n
  | .string s => stringText s
  | .array [] => ['[', ']']
  | .array (v :: vs) =>
    '[' :: newline (depth + 1) ++ prettyText (depth + 1) v ++ prettyItems (depth + 1) vs ++
      newline depth ++ [']']
  | .object [] => ['\x7b', '\x7d']
  | .object ((k, v) :: ms) =>
    '\x7b' :: newline (depth + 1) ++ stringText k ++ ':' :: ' ' :: prettyText (depth + 1) v ++
      prettyMembers (depth + 1) ms ++ newline depth ++ ['\x7d']

/-- Further items of an array, each on a line behind a comma. -/
def prettyItems (depth : Nat) : List Json → List Char
  | [] => []
  | v :: vs => ',' :: newline depth ++ prettyText depth v ++ prettyItems depth vs

/-- Further members of an object, each on a line behind a comma. -/
def prettyMembers (depth : Nat) : List (String × Json) → List Char
  | [] => []
  | (k, v) :: ms =>
    ',' :: newline depth ++ stringText k ++ ':' :: ' ' :: prettyText depth v ++
      prettyMembers depth ms

end

def compact (v : Json) : String :=
  String.ofList v.compactText

def pretty (v : Json) : String :=
  String.ofList (v.prettyText 0)

end Restyle.Json
