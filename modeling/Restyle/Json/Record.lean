import Restyle.Json.Skip
import Restyle.Entries

/-!
# Records

A record is an object with known fields, all of them optional.  It may also be
written as an array of its first fields.  Members that are no fields are passed
over.  A record is read from a JSON value or straight from a text; in a text a
field must not come twice.
-/

namespace Restyle.Json

/-- A field of a record: how it is set from a value and how it is read from a text. -/
structure Field (α : Type) where
  name : String
  ofJson : α → Json → Except Cause α
  read : α → List Char → Except Failure (α × List Char)

structure Record (α : Type) where
  /-- What a refusal calls it. -/
  label : String
  fields : List (Field α)
  blank : α

/-- Reads a scalar of one kind from a text. -/
def readKind {β : Type} (expected : String) (accept? : Json → Option β) (cs : List Char) :
    Except Failure (β × List Char) :=
  match skipSpace cs with
  | [] => failAt .endInValue []
  | c :: rest =>
    if c == '[' then failAt (.wrongKind (describe (.array [])) expected) (c :: rest)
    else if c == '\x7b' then failAt (.wrongKind (describe (.object [])) expected) (c :: rest)
    else do
      let (v, n) ← readScalar c rest
      match accept? v with
      | some b => return (b, rest.drop n)
      | none => failAt (.wrongKind v.describe expected) (rest.drop n)

/-- A field that holds a scalar of one kind. -/
def Field.scalar {α β : Type} (name expected : String) (accept? : Json → Option β)
    (set : α → β → α) : Field α where
  name := name
  ofJson a v := match accept? v with
    | some b => .ok (set a b)
    | none => .error (.wrongKind v.describe expected)
  read a cs := do
    let (b, rest) ← readKind expected accept? cs
    return (set a b, rest)

namespace Record

variable {α : Type}

def field? (r : Record α) (name : String) : Option (Field α) :=
  r.fields.find? (·.name == name)

/-- The fields in the order of their names. -/
def sortedFields (r : Record α) : List (Field α) :=
  r.fields.mergeSort fun f g => f.name ≤ g.name

/-- The record that a value is.  The members of an object are read in the order of their names, and
of several members of one name the last one counts. -/
def ofJson (r : Record α) : Json → Except Cause α
  | .object members =>
    r.sortedFields.foldlM (fun a f => match (Entries.ofList members).get? f.name with
      | some v => f.ofJson a v
      | none => .ok a) r.blank
  | .array items => do
    let a ← (r.fields.zip items).foldlM (fun a fv => fv.1.ofJson a fv.2) r.blank
    if r.fields.length < items.length then throw (.tooManyItems items.length)
    return a
  | v => .error (.wrongKind v.describe r.label)

/-- Refuses a field that comes again.  White space behind its name counts as read, and so does the
end of the object. -/
def refuseAgain {β : Type} (name : String) (cs : List Char) : Except Failure β :=
  match skipSpace cs with
  | [] => failAt (.duplicateField name) []
  | c :: rest => failAt (.duplicateField name) (if c == '\x7d' then rest else c :: rest)

/-- Reads the members of a record from the name of one on.  No text has more of them than
characters, which is what `fuel` counts. -/
def readMembers (r : Record α) (fuel : Nat) (seen : List String) (a : α) (cs : List Char) :
    Except Failure (α × List Char) :=
  match fuel with
  | 0 => failAt .endInObject cs
  | fuel + 1 => do
    let (name, rest) ← readName cs
    let (a, rest) ← match r.field? name with
      | some f =>
        if seen.contains name then refuseAgain name rest else f.read a (← readColon rest)
      | none => do pure (a, ← skipValue [] false (← readColon rest))
    match skipSpace rest with
    | [] => failAt .endInObject []
    | c :: behind =>
      if c == '\x7d' then return (a, behind)
      else if c == ',' then
        match skipSpace behind with
        | [] => failAt .endInValue []
        | d :: left =>
          if d == '\x7d' then failBehind .trailingComma (d :: left)
          else readMembers r fuel (name :: seen) a (d :: left)
      else failBehind .expectedMemberEnd (c :: behind)

/-- Reads the end of a record that is written as an array. -/
def readArrayEnd (a : α) (cs : List Char) : Except Failure (α × List Char) :=
  match skipSpace cs with
  | [] => failAt .endInArray []
  | c :: rest =>
    if c == ']' then .ok (a, rest)
    else if c == ',' then
      match skipSpace rest with
      | ']' :: behind => failBehind .trailingComma (']' :: behind)
      | behind => failBehind .trailingCharacters behind
    else failBehind .trailingCharacters (c :: rest)

/-- Reads the fields of a record that is written as an array.  `first` says that none has been read
yet. -/
def readItems (first : Bool) (a : α) : List (Field α) → List Char → Except Failure (α × List Char)
  | [], cs => readArrayEnd a cs
  | f :: fs, cs =>
    match skipSpace cs with
    | [] => failAt .endInArray []
    | c :: rest =>
      if c == ']' then .ok (a, rest)
      else if first then do
        let (a, left) ← f.read a (c :: rest)
        readItems false a fs left
      else if c == ',' then
        match skipSpace rest with
        | [] => failAt .endInValue []
        | d :: behind =>
          if d == ']' then failBehind .trailingComma (d :: behind)
          else do
            let (a, left) ← f.read a (d :: behind)
            readItems false a fs left
      else failBehind .expectedItemEnd (c :: rest)

def read (r : Record α) (cs : List Char) : Except Failure (α × List Char) :=
  match skipSpace cs with
  | [] => failAt .endInValue []
  | c :: rest =>
    if c == '\x7b' then
      match skipSpace rest with
      | [] => failAt .endInObject []
      | d :: behind =>
        if d == '\x7d' then .ok (r.blank, behind)
        else r.readMembers cs.length [] r.blank (d :: behind)
    else if c == '[' then readItems true r.blank r.fields rest
    else do
      let (v, n) ← readScalar c rest
      failAt (.wrongKind v.describe r.label) (rest.drop n)

/-- A field that holds a record. -/
def asField {β : Type} (r : Record β) (name : String) (set : α → β → α) : Field α where
  name := name
  ofJson a v := do return set a (← r.ofJson v)
  read a cs := do
    let (b, rest) ← r.read cs
    return (set a b, rest)

def parse (r : Record α) (text : String) : Except Error α :=
  let read : Except Failure α := do
    let (a, rest) ← r.read text.toList
    readEnd a rest
  read.mapError (·.locate text.toList)

end Record

end Restyle.Json
