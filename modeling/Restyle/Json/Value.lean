import Restyle.Number.Format

/-!
# JSON values

Numbers that were written as whole ones of at most 64 bits stay whole; all
others are doubles.  The members of an object stand in the order of the text,
and a name may come more than once.
-/

namespace Restyle

/-- A JSON value. -/
inductive Json where
  | null
  | boolean (b : Bool)
  | integer (n : Int)
  | double (n : Double)
  | string (s : String)
  | array (items : List Json)
  | object (members : List (String × Json))
  deriving Repr

namespace Json

/-- Doubles are positional from `10 ^ -5` to below `10 ^ 16` and show that they are no integers. -/
def doubleFormat : Number.Format where
  least := -5
  greatest := 15
  pointed := true
  tie := .even

/-- The text of a double.  JSON has none for what is not finite. -/
def doubleText : Double → List Char
  | .finite negative code => doubleFormat.signed negative code
  | _ => ['n', 'u', 'l', 'l']

/-- The text of an integer. -/
def integerText (n : Int) : List Char :=
  if n < 0 then '-' :: Nat.toDigits 10 n.natAbs else Nat.toDigits 10 n.natAbs

end Json

end Restyle
