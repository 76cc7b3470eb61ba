import Restyle.Number.Format
import Restyle.Entries

/-!
# Style values

A style object is a tree of ordered entries.  Its keys are selectors, at-rules
and property names; its values are texts, numbers, further objects and lists.
-/

namespace Restyle.Style

inductive Value where
  /-- A text such as `red` or `10px 20px`. -/
  | scalar (text : String)
  | number (n : Double)
  /-- A style object: the body of a rule, of a media query or of a keyframe. -/
  | nested (entries : List (String × Value))
  /-- A list of style objects, such as the earlier values of repeated properties. -/
  | fallbacks (objects : List (List (String × Value)))
  /-- Any other list. -/
  | list (items : List Value)
  | boolean (b : Bool)
  | null
  deriving Repr

/-- Style values under keys, in order. -/
abbrev Object : Type := Entries Value

namespace Value

/-- Numbers in style sheets are positional from `10 ^ -6` to below `10 ^ 21`; of two shortest forms
at the same distance the greater is written. -/
def numberFormat : Number.Format where
  least := -6
  greatest := 20
  pointed := false
  tie := .upper

/-- The text of a number in a style sheet.  Zero has no sign. -/
def numberText : Double → String
  | .nan => "NaN"
  | .infinite negative => if negative then "-Infinity" else "Infinity"
  | .finite negative code =>
    if code.val = 0 then "0" else String.ofList (numberFormat.signed negative code)

/-- Whether a value is an object or a list. -/
def isContainer : Value → Bool
  | .nested _ | .fallbacks _ | .list _ => true
  | _ => false

def nested? : Value → Option Object
  | .nested entries => some entries
  | _ => none

def scalar? : Value → Option String
  | .scalar text => some text
  | _ => none

def number? : Value → Option Double
  | .number n => some n
  | _ => none

/-- The text of a value in a style sheet.  Objects and lists have none. -/
def written? : Value → Option String
  | .scalar text => some text
  | .number n => some (numberText n)
  | .boolean b => some (if b then "true" else "false")
  | .null => some "null"
  | .nested _ | .fallbacks _ | .list _ => none

/-- Whether no member of a value is an object or a list.  A list of objects is a leaf only when it
is empty. -/
def isLeaf : Value → Bool
  | .nested entries => !entries.any fun e => e.2.isContainer
  | .fallbacks objects => objects.isEmpty
  | .list items => !items.any isContainer
  | _ => true

/-- A value seen as an object: a list has its indices as keys. -/
def members? : Value → Option Object
  | .nested entries => some entries
  | .fallbacks objects => some (Entries.indexed .nested 0 objects)
  | .list items => some (Entries.indexed id 0 items)
  | _ => none

end Value

/-- The key under which a style object keeps the earlier values of repeated properties. -/
def Object.fallbackKey : String := "fallbacks"

end Restyle.Style
