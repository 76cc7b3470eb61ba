import Restyle.Number.Numeral

/-!
# Shortest decimal digits

A finite double has a finite decimal expansion.  Of the decimal numbers that
read back as the double, `shortest` takes one with the fewest digits, and the
nearest of those: on the grid of each number of digits it tries the two
neighbours of the double.
-/

namespace Restyle.Number

/-- Which of two decimal numbers at the same distance is taken. -/
inductive Tie where
  | upper
  | even
  deriving Repr, DecidableEq

/-- The digits of a decimal number and the power of ten of the last one. -/
structure Digits where
  digits : Nat
  exponent : Int
  deriving Repr, DecidableEq

namespace Digits

/-- The exact decimal expansion of a magnitude. -/
def exact (code : Nat) : Digits :=
  let s := Double.significand code
  let e := Double.scale code
  if Double.unitExponent ≤ e then ⟨s * Nat.pow 2 (e - Double.unitExponent), 0⟩
  else ⟨s * Nat.pow 5 (Double.unitExponent - e), (e : Int) - Double.unitExponent⟩

/-- Whether a decimal number reads back as the magnitude of the code. -/
def readsAs (code : Nat) (d : Digits) : Bool :=
  (Decimal.mk false d.digits d.exponent).toDouble == Double.ofCode false code

/-- The neighbour of a decimal number on the grid that leaves out its last `cut` digits, if one
reads back as the magnitude of the code. -/
def onGrid? (tie : Tie) (code : Nat) (d : Digits) (cut : Nat) : Option Digits :=
  let low : Digits := ⟨d.digits / Nat.pow 10 cut, d.exponent + cut⟩
  let high : Digits := ⟨d.digits / Nat.pow 10 cut + 1, d.exponent + cut⟩
  let below := d.digits % Nat.pow 10 cut
  let above := Nat.pow 10 cut - below
  match low.readsAs code, high.readsAs code with
  | true, true =>
    if below < above then some low
    else if above < below then some high
    else match tie with
      | .upper => some high
      | .even => if low.digits % 2 = 0 then some low else some high
  | true, false => some low
  | false, true => some high
  | false, false => none

/-- The first grid with a number that reads back, from the one that leaves out `cut` digits down to
the expansion itself. -/
def search (tie : Tie) (code : Nat) (d : Digits) : Nat → Digits
  | 0 => d
  | cut + 1 => match d.onGrid? tie code (cut + 1) with
    | some found => found
    | none => search tie code d cut

/-- The digits without the zeros at their end. -/
def normalize (digits : Nat) (exponent : Int) : Digits :=
  if h : digits ≠ 0 ∧ digits % 10 = 0 then normalize (digits / 10) (exponent + 1)
  else ⟨digits, exponent⟩
termination_by digits
decreasing_by omega

end Digits

def shortest (tie : Tie) (code : Nat) : Digits :=
  let d := Digits.exact code
  let found := d.search tie code (digitCount d.digits - 1)
  Digits.normalize found.digits found.exponent

end Restyle.Number
