import Restyle.Number.Shortest

/-!
# Numbers as text

A number is written with its shortest digits, positionally where its size is
moderate and with an exponent elsewhere.  `Format` holds what the formats of
different languages decide for themselves.
-/

namespace Restyle.Number

/-- How numbers are written. -/
structure Format where
  /-- The least power of ten of a leading digit that is written positionally. -/
  least : Int
  /-- The greatest power of ten of a leading digit that is written positionally. -/
  greatest : Int
  /-- Whether a whole number written positionally ends in `.0`. -/
  pointed : Bool
  tie : Tie
  deriving Repr, DecidableEq

namespace Format

/-- The text of digits whose leading one stands at the power `top` of ten. -/
def positional (f : Format) (digits : List Char) (top : Int) : List Char :=
  if top < 0 then '0' :: '.' :: List.replicate (-top - 1).toNat '0' ++ digits
  else
    let whole := top.toNat + 1
    if digits.length ≤ whole then
      digits ++ List.replicate (whole - digits.length) '0' ++
        (if f.pointed then ['.', '0'] else [])
    else digits.take whole ++ '.' :: digits.drop whole

/-- The text of digits with an exponent.  The exponent always has a sign. -/
def exponential (digits : List Char) (top : Int) : List Char :=
  let fraction := digits.drop 1
  digits.take 1 ++ (if fraction.isEmpty then [] else '.' :: fraction) ++
    'e' :: (if top < 0 then '-' else '+') :: Nat.toDigits 10 top.natAbs

def magnitude (f : Format) (code : Nat) : List Char :=
  let d := shortest f.tie code
  let digits := Nat.toDigits 10 d.digits
  let top := if code = 0 then 0 else digits.length - 1 + d.exponent
  if f.least ≤ top ∧ top ≤ f.greatest then f.positional digits top else exponential digits top

def signed (f : Format) (negative : Bool) (code : Nat) : List Char :=
  if negative then '-' :: f.magnitude code else f.magnitude code

end Format

end Restyle.Number
