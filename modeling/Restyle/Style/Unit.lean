import Restyle.Number.Numeral
import Restyle.Style.Value
import Restyle.Text.Blank

/-!
# Units

A style object may hold plain numbers for lengths in its usual unit: `10px`
becomes `10`.  Values of several parts are left as they are.
-/

namespace Restyle.Style

/-- Whether a value has several parts: white space or a comma in it. -/
def hasSeveralParts (value : String) : Bool :=
  value.toList.any fun c => Text.isBlank c || c == ','

/-- The number at the front of a text, white space aside. -/
def leadingNumber? (text : String) : Option Double :=
  let cs := Text.trimStart text.toList
  let n := Number.numeralLength cs
  if n = 0 then none else some (Number.readNumeral (cs.take n)).toDouble

/-- A value without its unit.  It stays a text unless it ends in the unit and starts with a
number. -/
def withoutUnit (value : String) (unit : Option String) : Value :=
  match unit with
  | none => .scalar value
  | some unit =>
    if unit == "" || hasSeveralParts value || !unit.toList.isSuffixOf value.toList then
      .scalar value
    else match leadingNumber? value with
      | some n => .number n
      | none => .scalar value

end Restyle.Style
