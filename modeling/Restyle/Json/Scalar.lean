import Restyle.Json.Failure

/-!
# Scalars in JSON texts

Words, numbers and strings at the front of a text.  Each reader says how many
characters belong to what it has read.
-/

namespace Restyle.Json

/-- White space between the parts of a text. -/
def isSpace (c : Char) : Bool :=
  c == ' ' || c == '\n' || c == '\t' || c == '\r'

/-- A text from its first character that is no white space on. -/
def skipSpace (cs : List Char) : List Char :=
  cs.dropWhile isSpace

theorem length_skipSpace_le (cs : List Char) : (skipSpace cs).length ≤ cs.length :=
  (List.dropWhile_suffix isSpace).length_le

/-- Fails at what is left to read. -/
def failAt {α : Type} (cause : Cause) (rest : List Char) : Except Failure α :=
  .error ⟨cause, rest, 0⟩

/-- Fails behind the next byte. -/
def failBehind {α : Type} (cause : Cause) (rest : List Char) : Except Failure α :=
  .error ⟨cause, rest, 1⟩

/-- What has been read in two steps has been read in the first one. -/
theorem exists_of_bind_eq_ok {α β : Type} {x : Except Failure α} {f : α → Except Failure β} {b : β}
    (h : (x >>= f) = .ok b) : ∃ a, x = .ok a ∧ f a = .ok b := by
  cases x with
  | error _ => cases h
  | ok a => exact ⟨a, rfl, h⟩

/-! ## Words -/

/-- Reads the rest of a word. -/
def readWord : List Char → List Char → Except Failure Unit
  | [], _ => .ok ()
  | _ :: _, [] => failAt .endInValue []
  | e :: es, c :: cs => if c == e then readWord es cs else failBehind .expectedWord (c :: cs)

/-! ## Strings -/

/-- Hexadecimal digits. -/
def hexDigit? (c : Char) : Option Nat :=
  if c.isDigit then some (c.toNat - 48)
  else if 'a' ≤ c && c ≤ 'f' then some (c.toNat - 87)
  else if 'A' ≤ c && c ≤ 'F' then some (c.toNat - 55)
  else none

/-- Reads the four digits of an escape. -/
def readHex (cs : List Char) : Except Failure Nat :=
  match (cs.take 4).mapM hexDigit? with
  | some [a, b, c, d] => .ok (((a * 16 + b) * 16 + c) * 16 + d)
  | _ => if byteLength cs < 4 then failAt .endInString [] else .error ⟨.invalidEscape, cs, 4⟩

/-- First halves of surrogate pairs. -/
def isLead (n : Nat) : Bool := 0xD800 ≤ n && n ≤ 0xDBFF

/-- Second halves of surrogate pairs. -/
def isTrail (n : Nat) : Bool := 0xDC00 ≤ n && n ≤ 0xDFFF

/-- Reads the second half of a surrogate pair. -/
def readTrail : List Char → Except Failure Nat
  | [] => failAt .endInString []
  | '\\' :: [] => failAt .endInString []
  | '\\' :: 'u' :: cs => do
    let n ← readHex cs
    if isTrail n then return n
    failAt .loneSurrogate (cs.drop 4)
  | '\\' :: c :: cs => failBehind .truncatedEscape (c :: cs)
  | c :: cs => failBehind .truncatedEscape (c :: cs)

/-- Reads the code of an escape behind its `u`. -/
def readUnicode (cs : List Char) : Except Failure (Char × Nat) := do
  let n ← readHex cs
  if isTrail n then failAt .loneSurrogate (cs.drop 4)
  else if isLead n then
    let m ← readTrail (cs.drop 4)
    return (Char.ofNat (0x10000 + (n - 0xD800) * 0x400 + (m - 0xDC00)), 11)
  else return (Char.ofNat n, 5)

/-- The characters that a backslash escapes alone. -/
def simpleEscape? (c : Char) : Option Char :=
  match c with
  | '"' => some '"'
  | '\\' => some '\\'
  | '/' => some '/'
  | 'b' => some '\x08'
  | 'f' => some '\x0c'
  | 'n' => some '\n'
  | 'r' => some '\r'
  | 't' => some '\t'
  | _ => none

/-- Reads an escape behind its backslash. -/
def readEscape : List Char → Except Failure (Char × Nat)
  | [] => failAt .endInString []
  | c :: cs =>
    match simpleEscape? c with
    | some d => .ok (d, 1)
    | none => if c == 'u' then readUnicode cs else failBehind .invalidEscape (c :: cs)

/-- Reads a string behind its first quotation mark. -/
def readString : List Char → Except Failure (List Char × Nat)
  | [] => failAt .endInString []
  | c :: cs =>
    if c == '"' then .ok ([], 1)
    else if c == '\\' then do
      let (d, n) ← readEscape cs
      let (ds, m) ← readString (cs.drop n)
      return (d :: ds, 1 + n + m)
    else if c.toNat < 0x20 then failBehind .controlCharacter (c :: cs)
    else do
      let (ds, m) ← readString cs
      return (c :: ds, 1 + m)
termination_by cs => cs.length

/-! ## Numbers -/

/-- The greatest number that the digits of an exponent may reach. -/
def exponentLimit : Nat := Nat.pow 2 31 - 1

/-- What is left of a text behind the digit that takes an exponent over the limit. -/
def overLimit? (exponent : Nat) : List Char → Option (List Char)
  | [] => none
  | c :: cs =>
    if c.isDigit then
      let next := exponent * 10 + (c.toNat - 48)
      if exponentLimit < next then some cs else overLimit? next cs
    else none

/-- How many digits start a text.  There has to be one. -/
def readDigits (cs : List Char) : Except Failure Nat :=
  match cs with
  | [] => failAt .endInValue []
  | c :: _ => if c.isDigit then .ok (Number.digitsLength cs) else failBehind .invalidNumber cs

/-- The length of the whole part of a number.  A leading zero stands alone. -/
def readWhole : List Char → Except Failure Nat
  | '0' :: c :: cs => if c.isDigit then failBehind .invalidNumber (c :: cs) else .ok 1
  | cs => readDigits cs

/-- The length of a fraction with its point, zero if there is none. -/
def readFraction : List Char → Except Failure Nat
  | '.' :: cs => do return 1 + (← readDigits cs)
  | _ => .ok 0

/-- The length of an exponent with its mark, zero if there is none. -/
def readExponentPart : List Char → Except Failure Nat
  | c :: cs =>
    if c == 'e' || c == 'E' then do
      let sign := Number.signLength cs
      return 1 + sign + (← readDigits (cs.drop sign))
    else .ok 0
  | [] => .ok 0

/-- Reads a number from its sign on.  A number without fraction and exponent is whole if it has at
most 64 bits; negative zero is not whole.

Any other number is read as the double nearest to it, rounded once.  A reader that rounds the digits to a
double first, and then scales that by a power of ten, may be off by a little: it may read `3e23` as
`2.9999999999999997e23`.  So what is proved of numbers that are written and read back takes it for granted
that the shortest digits of a double are read as that double. -/
def readNumber (cs : List Char) : Except Failure (Json × Nat) := do
  let sign := if cs.head? == some '-' then 1 else 0
  let whole := sign + (← readWhole (cs.drop sign))
  let broken := whole + (← readFraction (cs.drop whole))
  let length := broken + (← readExponentPart (cs.drop broken))
  let decimal := Number.readNumeral (cs.take length)
  let exponent := (cs.take length).drop (broken + 1)
  let upwards := exponent.head? != some '-'
  match overLimit? 0 (exponent.drop (Number.signLength exponent)) with
  | some left =>
    if upwards && decimal.digits != 0 then failAt .numberOutOfRange (left ++ cs.drop length)
    else return (.double (Double.ofCode decimal.negative 0), length)
  | none =>
    let isWhole := length == whole &&
      (if sign = 0 then decimal.digits < Nat.pow 2 64
        else decimal.digits != 0 && decimal.digits ≤ Nat.pow 2 63)
    if isWhole then
      let n : Int := decimal.digits
      return (.integer (if sign = 0 then n else -n), length)
    else
      let n := decimal.toDouble
      if n.isFinite then return (.double n, length)
      else failAt .numberOutOfRange (cs.drop length)

/-! ## Scalars -/

/-- Reads the scalar that starts with `c`.  The count is that of the characters behind `c`. -/
def readScalar (c : Char) (cs : List Char) : Except Failure (Json × Nat) :=
  if c == 'n' then do readWord ['u', 'l', 'l'] cs; return (.null, 3)
  else if c == 't' then do readWord ['r', 'u', 'e'] cs; return (.boolean true, 3)
  else if c == 'f' then do readWord ['a', 'l', 's', 'e'] cs; return (.boolean false, 4)
  else if c == '"' then do
    let (s, n) ← readString cs
    return (.string (String.ofList s), n)
  else if c == '-' || c.isDigit then do
    let (v, n) ← readNumber (c :: cs)
    return (v, n - 1)
  else failBehind .expectedValue (c :: cs)

end Restyle.Json
