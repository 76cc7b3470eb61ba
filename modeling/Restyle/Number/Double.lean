/-!
# Double-precision numbers

A finite double is a sign and the code of its magnitude: the lower 63 bits of
its binary form, read as a number.  Codes stand in the order of the magnitudes.
The magnitude of a code is a whole number of units of `2 ^ -1074`, its
significand times a power of two.

`Double.nearest` rounds a quotient to the nearest double; a tie goes to the even
code.
-/

namespace Restyle

/-- How many finite magnitudes there are. -/
def Double.magnitudes : Nat := 0x7FF0000000000000

/-- A double-precision number. -/
inductive Double where
  | nan
  | infinite (negative : Bool)
  | finite (negative : Bool) (code : Fin Double.magnitudes)
  deriving Repr, DecidableEq

namespace Double

/-- The unit of all magnitudes is `2 ^ -unitExponent`. -/
def unitExponent : Nat := 1074

/-- By how many powers of two the significand of a code is scaled. -/
def scale (code : Nat) : Nat :=
  code / Nat.pow 2 52 - 1

/-- The significand of a code: below `2 ^ 53`, and at least `2 ^ 52` unless the scale is zero. -/
def significand (code : Nat) : Nat :=
  code - scale code * Nat.pow 2 52

/-- The magnitude of a code in units. -/
def units (code : Nat) : Nat :=
  significand code * Nat.pow 2 (scale code)

/-- Whether a number is neither infinite nor undefined. -/
def isFinite : Double → Bool
  | .finite _ _ => true
  | _ => false

/-- A quotient rounded to the nearest whole number, a tie to the even one. -/
def divEven (n d : Nat) : Nat :=
  let q := n / d
  let r := n % d
  if 2 * r < d then q else if d < 2 * r then q + 1 else q + q % 2

/-- The code whose magnitude is nearest to a quotient of units.  There is no upper limit on it. -/
def nearestCode (n d : Nat) : Nat :=
  let scale := (n / d).log2 + 1 - 53
  scale * Nat.pow 2 52 + divEven n (d * Nat.pow 2 scale)

/-- The number of a code.  What is too great for a finite number is infinite. -/
def ofCode (negative : Bool) (code : Nat) : Double :=
  if h : code < magnitudes then .finite negative ⟨code, h⟩ else .infinite negative

/-- The double nearest to a quotient. -/
def nearest (negative : Bool) (n d : Nat) : Double :=
  ofCode negative (nearestCode (n * Nat.pow 2 unitExponent) d)

/-- The double nearest to a whole number. -/
def ofInt (n : Int) : Double :=
  nearest (n < 0) n.natAbs 1

/-- The greatest whole number up to which every whole number is a double and the next one too. -/
def safeInteger : Nat := Nat.pow 2 53 - 1

/-- The whole number that a double is, if it is one. -/
def toInt? : Double → Option Int
  | .finite negative code =>
    if units code % Nat.pow 2 unitExponent = 0 then
      let n : Int := (units code / Nat.pow 2 unitExponent : Nat)
      some (if negative then -n else n)
    else none
  | _ => none

end Double

end Restyle
