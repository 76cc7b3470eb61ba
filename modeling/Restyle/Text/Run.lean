/-!
# Sets and shifts of code points

Properties of characters come as tables.  Neighbouring letters often alternate
between upper and lower case, so a table entry is a run of code points at a
fixed distance from one another, and a case map is a run with one shift for all
its members.
-/

namespace Restyle.Text

/-- The code points `first`, `first + step`, … up to `last`. -/
structure Run where
  first : Nat
  last : Nat
  step : Nat
  deriving Repr, DecidableEq

namespace Run

/-- Whether a code point is in the run. -/
def contains (r : Run) (n : Nat) : Bool :=
  r.first ≤ n && n ≤ r.last && (n - r.first) % r.step == 0

end Run

/-- A run whose members all map to the code point `offset` further on. -/
structure Shift where
  run : Run
  offset : Int
  deriving Repr, DecidableEq

/-- The image of a code point under the first shift that holds it. -/
def Shift.apply? (table : List Shift) (n : Nat) : Option Nat :=
  (table.find? (·.run.contains n)).map fun s => ((n : Int) + s.offset).toNat

/-- Whether a code point lies in one of the intervals, ends included. -/
def inSpans (spans : List (Nat × Nat)) (n : Nat) : Bool :=
  spans.any fun (lo, hi) => lo ≤ n && n ≤ hi

end Restyle.Text
