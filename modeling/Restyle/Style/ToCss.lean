import Restyle.Style.PropertyName
import Restyle.Style.Value

/-!
# Style sheets of style objects

Every entry that is an object or a list becomes a block under a class of its
key, every other entry a declaration.  Numbers get the unit `px`.  The members
of a list stand under their indices.
-/

namespace Restyle.Style

/-- A declaration line, if the value has a text. -/
def declarationLine (key : String) (value : Value) : String :=
  match value.written? with
  | none => ""
  | some text =>
    let unit := match value with
      | .number _ => "px"
      | _ => ""
    kebabCase key ++ ":" ++ text ++ unit ++ ";\n"

/-- The declaration lines of an object, members that are objects left out. -/
def declarationLines (entries : Object) : String :=
  String.join (entries.map fun e => declarationLine e.1 e.2)

/-- A block under the class of a key. -/
def classBlock (key body : String) : String :=
  "\n." ++ key ++ " \x7b\n  " ++ body ++ "\x7d"

mutual

/-- The style sheet of the entries of an object. -/
def cssOfEntries : List (String × Value) → String
  | [] => ""
  | (key, value) :: rest => cssOfEntry key value ++ cssOfEntries rest

/-- The style sheet of one entry.  A body without further blocks is a list of declaration lines. -/
def cssOfEntry (key : String) : Value → String
  | .nested entries =>
    classBlock key (if (Value.nested entries).isLeaf then declarationLines entries
      else cssOfEntries entries)
  | .fallbacks objects =>
    classBlock key (if objects.isEmpty then "" else cssOfObjects 0 objects)
  | .list items =>
    classBlock key (if (Value.list items).isLeaf then declarationLines (Entries.indexed id 0 items)
      else cssOfItems 0 items)
  | .scalar text => declarationLine key (.scalar text)
  | .number n => declarationLine key (.number n)
  | .boolean b => declarationLine key (.boolean b)
  | .null => declarationLine key .null

/-- The style sheet of objects under their indices. -/
def cssOfObjects (i : Nat) : List (List (String × Value)) → String
  | [] => ""
  | entries :: rest =>
    classBlock (toString i)
        (if (Value.nested entries).isLeaf then declarationLines entries
          else cssOfEntries entries) ++
      cssOfObjects (i + 1) rest

def cssOfItems (i : Nat) : List Value → String
  | [] => ""
  | item :: rest => cssOfEntry (toString i) item ++ cssOfItems (i + 1) rest

end

def toCss (styles : Object) : String :=
  cssOfEntries styles

end Restyle.Style
