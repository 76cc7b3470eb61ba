import Restyle.Css.Location

/-!
# Names and escapes

A name is a run of letters, digits, `_`, `-`, NUL, characters beyond ASCII and
escapes.  An escape is a backslash with up to six hexadecimal digits and one
white space behind them, or with any one other character.  A backslash before a
line end is no escape.

The lengths below count characters at the front of a text; `Name.decode` gives
the characters that a written name stands for.
-/

namespace Restyle.Css

def isHexDigit (c : Char) : Bool :=
  c.isDigit || ('a' ≤ c && c ≤ 'f') || ('A' ≤ c && c ≤ 'F')

def hexValue (c : Char) : Nat :=
  if c.isDigit then c.toNat - 48 else if c ≤ 'F' then c.toNat - 55 else c.toNat - 87

/-- Characters that may start a name: letters, `_`, NUL and all beyond ASCII. -/
def isNameStart (c : Char) : Bool :=
  c.isAlpha || c == '_' || c == '\x00' || 0x80 ≤ c.toNat

/-- Characters that may stand in a name unescaped. -/
def isNameChar (c : Char) : Bool :=
  isNameStart c || c.isDigit || c == '-'

def startsNewline : List Char → Bool
  | c :: _ => isNewline c
  | [] => false

/-- The hexadecimal digits of the escape whose backslash has been read. -/
def hexDigits (cs : List Char) : List Char :=
  (cs.take 6).takeWhile isHexDigit

/-- The length of the white space that ends a hexadecimal escape. -/
def gapLength : List Char → Nat
  | c :: cs => if isNewline c then newlineLength (c :: cs) else if isSpace c then 1 else 0
  | [] => 0

/-- The length of an escape behind its backslash.  Nothing is left to escape at the end. -/
def escapeLength (cs : List Char) : Nat :=
  let digits := (hexDigits cs).length
  if digits = 0 then min 1 cs.length else digits + gapLength (cs.drop digits)

/-- The length of the name at the front of a text. -/
def nameLength : List Char → Nat
  | [] => 0
  | c :: cs =>
    if c == '\\' then
      if startsNewline cs then 0
      else 1 + escapeLength cs + nameLength (cs.drop (escapeLength cs))
    else if isNameChar c then 1 + nameLength cs
    else 0
termination_by cs => cs.length

/-- Whether an identifier starts here.  Behind a leading `-` a backslash counts whatever follows
it. -/
def startsIdent : List Char → Bool
  | '-' :: c :: _ => isNameStart c || c == '-' || c == '\\'
  | '\\' :: cs => !startsNewline cs
  | c :: _ => isNameStart c
  | [] => false

/-- The character that an escape stands for.  Code points that are no characters, NUL and an
escape at the end give U+FFFD. -/
def escapedChar (cs : List Char) : Char :=
  match hexDigits cs with
  | [] => match cs with
    | [] => '\uFFFD'
    | c :: _ => if c == '\x00' then '\uFFFD' else c
  | digits =>
    let n := digits.foldl (fun n d => n * 16 + hexValue d) 0
    if n.isValidChar && n != 0 then Char.ofNat n else '\uFFFD'

/-- The characters that a written name stands for. -/
def Name.decode : List Char → List Char
  | [] => []
  | c :: cs =>
    if c == '\\' then escapedChar cs :: Name.decode (cs.drop (escapeLength cs))
    else (if c == '\x00' then '\uFFFD' else c) :: Name.decode cs
termination_by cs => cs.length

/-- Lower case of the ASCII letters, all else as it is. -/
def asciiLower (cs : List Char) : List Char :=
  cs.map Char.toLower

end Restyle.Css
