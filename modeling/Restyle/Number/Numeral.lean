import Restyle.Number.Double

/-!
# Decimal numerals

A numeral is an optional sign, digits with an optional point and further
digits, or a point with at least one digit, and then optionally `e` or `E`, an
optional sign and at least one digit.  The lengths below count characters at
the front of a text; `Numeral.read` gives the number that a numeral denotes, and
`Decimal.toDouble` the double nearest to it.
-/

namespace Restyle.Number

def signLength : List Char → Nat
  | '+' :: _ => 1
  | '-' :: _ => 1
  | _ => 0

def digitsLength (cs : List Char) : Nat :=
  (cs.takeWhile Char.isDigit).length

/-- The length of a point and the digits behind it.  Without digits on either side there is none. -/
def fractionLength (whole : Nat) : List Char → Nat
  | '.' :: cs => if whole = 0 && digitsLength cs = 0 then 0 else 1 + digitsLength cs
  | _ => 0

/-- The length of an exponent.  Without a digit in it there is none. -/
def exponentLength : List Char → Nat
  | c :: cs =>
    if c == 'e' || c == 'E' then
      let sign := signLength cs
      match digitsLength (cs.drop sign) with
      | 0 => 0
      | n + 1 => n + 2 + sign
    else 0
  | [] => 0

/-- The length of the longest numeral at the front of a text, zero if there is none. -/
def numeralLength (cs : List Char) : Nat :=
  let sign := signLength cs
  let whole := digitsLength (cs.drop sign)
  let fraction := fractionLength whole (cs.drop (sign + whole))
  if whole + fraction = 0 then 0
  else
    let mantissa := sign + whole + fraction
    mantissa + exponentLength (cs.drop mantissa)

/-- The number that a row of digits denotes. -/
def natOfDigits (cs : List Char) : Nat :=
  cs.foldl (fun n c => n * 10 + (c.toNat - 48)) 0

/-- The decimal number `digits * 10 ^ exponent` with a sign. -/
structure Decimal where
  negative : Bool
  digits : Nat
  exponent : Int
  deriving Repr, DecidableEq

/-- How many digits a number has.  Zero has none. -/
def digitCount (n : Nat) : Nat :=
  if n = 0 then 0 else (Nat.toDigits 10 n).length

/-- The double nearest to a decimal number.  Exponents beyond all finite magnitudes need no powers
of ten. -/
def Decimal.toDouble (d : Decimal) : Double :=
  let top := digitCount d.digits + d.exponent
  if d.digits = 0 || top < -330 then Double.ofCode d.negative 0
  else if 310 < top then .infinite d.negative
  else
    let power := Nat.pow 10 d.exponent.natAbs
    if 0 ≤ d.exponent then Double.nearest d.negative (d.digits * power) 1
    else Double.nearest d.negative d.digits power

/-- The number of an exponent with its mark, zero where there is none. -/
def readExponent : List Char → Int
  | [] => 0
  | _ :: '-' :: cs => -natOfDigits cs
  | _ :: '+' :: cs => natOfDigits cs
  | _ :: cs => natOfDigits cs

/-- The number that a numeral denotes. -/
def readNumeral (cs : List Char) : Decimal :=
  let unsigned := cs.drop (signLength cs)
  let whole := unsigned.takeWhile Char.isDigit
  let behind := unsigned.dropWhile Char.isDigit
  let fraction := match behind with
    | '.' :: rest => rest.takeWhile Char.isDigit
    | _ => []
  let exponent := match behind with
    | '.' :: rest => rest.dropWhile Char.isDigit
    | rest => rest
  ⟨cs.head? == some '-', natOfDigits (whole ++ fraction),
    readExponent exponent - fraction.length⟩

end Restyle.Number
