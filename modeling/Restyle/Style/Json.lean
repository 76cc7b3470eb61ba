import Restyle.Json.Reader
import Restyle.Json.Printer
import Restyle.Style.Value

/-!
# Style values and JSON

Any JSON value is a style value: an array of objects is a list of fallbacks, any
other array a plain list.  Back in JSON, a number is written as an integer where
all integers of its size are exact, and what is not finite becomes `null`.
-/

namespace Restyle.Style

namespace Value

/-- The value that a row of items makes. -/
def ofItems (items : List Value) : Value :=
  match items.mapM nested? with
  | some objects => .fallbacks objects
  | none => .list items

mutual

def ofJson : Json → Value
  | .null => .null
  | .boolean b => .boolean b
  | .integer n => .number (Double.ofInt n)
  | .double n => .number n
  | .string s => .scalar s
  | .array items => ofItems (ofJsonItems items)
  | .object members => .nested (Entries.ofList (ofJsonMembers members))

/-- The style values of the items of an array. -/
def ofJsonItems : List Json → List Value
  | [] => []
  | v :: vs => ofJson v :: ofJsonItems vs

/-- The style values of the members of an object. -/
def ofJsonMembers : List (String × Json) → List (String × Value)
  | [] => []
  | (k, v) :: ms => (k, ofJson v) :: ofJsonMembers ms

end

def numberJson (n : Double) : Json :=
  if n.isFinite then
    match n.toInt? with
    | some i => if i.natAbs ≤ Double.safeInteger then .integer i else .double n
    | none => .double n
  else .null

mutual

def toJson : Value → Json
  | .scalar text => .string text
  | .number n => numberJson n
  | .nested entries => .object (entriesJson entries)
  | .fallbacks objects => .array (objectsJson objects)
  | .list items => .array (itemsJson items)
  | .boolean b => .boolean b
  | .null => .null

def entriesJson : List (String × Value) → List (String × Json)
  | [] => []
  | (k, v) :: rest => (k, toJson v) :: entriesJson rest

def objectsJson : List (List (String × Value)) → List Json
  | [] => []
  | entries :: rest => .object (entriesJson entries) :: objectsJson rest

def itemsJson : List Value → List Json
  | [] => []
  | v :: rest => toJson v :: itemsJson rest

end

def parse (text : String) : Except Json.Error Value :=
  (Json.parse text).map ofJson

end Value

namespace Object

def toJson (styles : Object) : Json :=
  .object (Value.entriesJson styles)

/-- The style object of a JSON text, which has to be an object. -/
def parse (text : String) : Except Json.Error Object :=
  (Json.parseMembers text).map fun members => Entries.ofList (Value.ofJsonMembers members)

/-- The style object of a JSON text.  An array has its indices as keys. -/
def parseAny (text : String) : Except Json.Error Object := do
  match (← Value.parse text).members? with
  | some styles => return styles
  | none => throw ⟨.notAnObject, none⟩

end Object

end Restyle.Style
