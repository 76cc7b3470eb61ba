/-!
# Places in a style sheet

A location is a line and a column, both counted from one.  Lines end at a line
feed, a carriage return, the two together or a form feed.  Columns count UTF-16
code units, so a character beyond the Basic Multilingual Plane takes two.
-/

namespace Restyle.Css

/-- Characters that end a line. -/
def isNewline (c : Char) : Bool :=
  c == '\n' || c == '\r' || c == '\x0c'

/-- White space of style sheets. -/
def isSpace (c : Char) : Bool :=
  c == ' ' || c == '\t' || isNewline c

/-- How many UTF-16 code units a character takes. -/
def utf16Width (c : Char) : Nat :=
  if c.toNat < 0x10000 then 1 else 2

/-- How many characters the line end at the front of a text takes. -/
def newlineLength : List Char → Nat
  | '\r' :: '\n' :: _ => 2
  | c :: _ => if isNewline c then 1 else 0
  | [] => 0

/-- A place in a style sheet. -/
structure Location where
  line : Nat := 1
  column : Nat := 1
  deriving Repr, DecidableEq, Inhabited

namespace Location

def start : Location := {}

def nextLine (loc : Location) : Location := ⟨loc.line + 1, 1⟩

/-- The place just after a text that starts here. -/
def advance (loc : Location) : List Char → Location
  | [] => loc
  | '\r' :: '\n' :: cs => loc.nextLine.advance cs
  | c :: cs =>
    if isNewline c then loc.nextLine.advance cs
    else Location.advance ⟨loc.line, loc.column + utf16Width c⟩ cs

@[simp] theorem advance_nil (loc : Location) : loc.advance [] = loc := by
  simp [advance]

end Location

end Restyle.Css
