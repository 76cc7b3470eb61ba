import Restyle.Json.Scalar

/-!
# Reading JSON

A reader keeps the arrays and objects that are open on a stack, so that it goes
through the text once.  At most 127 of them may be open.
-/

namespace Restyle.Json

/-- An array or object that is open, with what it has so far, last item first. -/
inductive Frame where
  | items (before : List Json)
  /-- An object that waits for the value of a key. -/
  | members (before : List (String × Json)) (key : String)

/-- What is to be read next. -/
inductive Task where
  | value
  /-- A value has been read and goes where it belongs. -/
  | settle (v : Json)

/-- How many arrays and objects may be open. -/
def depthLimit : Nat := 127

/-- Reads a string with its quotation marks where a key has to stand. -/
def readName (cs : List Char) : Except Failure (String × List Char) :=
  match cs with
  | [] => failAt .endInValue []
  | c :: rest =>
    if c == '"' then do
      let (s, n) ← readString rest
      return (String.ofList s, rest.drop n)
    else failBehind .keyNotString cs

/-- Reads the colon between a key and its value. -/
def readColon (cs : List Char) : Except Failure (List Char) :=
  match skipSpace cs with
  | [] => failAt .endInObject []
  | c :: rest => if c == ':' then .ok rest else failBehind .expectedColon (c :: rest)

/-- Reads a key and the colon behind it. -/
def readKey (cs : List Char) : Except Failure (String × List Char) := do
  let (key, rest) ← readName cs
  return (key, ← readColon rest)

theorem length_lt_of_readName {cs rest : List Char} {key : String}
    (h : readName cs = .ok (key, rest)) : rest.length < cs.length := by
  cases cs with
  | nil => cases h
  | cons c cs =>
    simp only [readName] at h
    split at h
    · obtain ⟨⟨s, n⟩, -, h⟩ := exists_of_bind_eq_ok h
      cases h
      simp only [List.length_drop, List.length_cons]
      omega
    · cases h

theorem length_lt_of_readColon {cs rest : List Char} (h : readColon cs = .ok rest) :
    rest.length < cs.length := by
  have hle := length_skipSpace_le cs
  unfold readColon at h
  split at h
  · cases h
  · rename_i c cs hskip
    split at h
    · cases h
      rw [hskip, List.length_cons] at hle
      omega
    · cases h

theorem length_lt_of_readKey {cs rest : List Char} {key : String}
    (h : readKey cs = .ok (key, rest)) : rest.length < cs.length := by
  obtain ⟨⟨name, behind⟩, hn, h⟩ := exists_of_bind_eq_ok h
  obtain ⟨left, hc, h⟩ := exists_of_bind_eq_ok h
  cases h
  exact Nat.lt_trans (length_lt_of_readColon hc) (length_lt_of_readName hn)

/-- Reads a value inside the open arrays and objects, and on to the end of the outermost one.  What
is left of the text comes with it. -/
def readValue (stack : List Frame) (task : Task) (cs : List Char) :
    Except Failure (Json × List Char) :=
  match task with
  | .value =>
    match _h : skipSpace cs with
    | [] => failAt .endInValue []
    | c :: rest =>
      if c == '[' then
        if depthLimit ≤ stack.length then failBehind .tooDeep (c :: rest)
        else match _h' : skipSpace rest with
          | [] => failAt .endInArray []
          | d :: behind =>
            if d == ']' then readValue stack (.settle (.array [])) behind
            else readValue (.items [] :: stack) .value (d :: behind)
      else if c == '\x7b' then
        if depthLimit ≤ stack.length then failBehind .tooDeep (c :: rest)
        else match _h' : skipSpace rest with
          | [] => failAt .endInObject []
          | d :: behind =>
            if d == '\x7d' then readValue stack (.settle (.object [])) behind
            else match _hk : readKey (d :: behind) with
              | .error f => .error f
              | .ok (key, behind) => readValue (.members [] key :: stack) .value behind
      else match readScalar c rest with
        | .error f => .error f
        | .ok (v, n) => readValue stack (.settle v) (rest.drop n)
  | .settle v =>
    match stack with
    | [] => .ok (v, cs)
    | .items before :: stack =>
      match _h : skipSpace cs with
      | [] => failAt .endInArray []
      | c :: rest =>
        if c == ']' then readValue stack (.settle (.array (v :: before).reverse)) rest
        else if c == ',' then
          match _h' : skipSpace rest with
          | [] => failAt .endInValue []
          | d :: behind =>
            if d == ']' then failBehind .trailingComma (d :: behind)
            else readValue (.items (v :: before) :: stack) .value (d :: behind)
        else failBehind .expectedItemEnd (c :: rest)
    | .members before key :: stack =>
      match _h : skipSpace cs with
      | [] => failAt .endInObject []
      | c :: rest =>
        if c == '\x7d' then
          readValue stack (.settle (.object ((key, v) :: before).reverse)) rest
        else if c == ',' then
          match _h' : skipSpace rest with
          | [] => failAt .endInValue []
          | d :: behind =>
            if d == '\x7d' then failBehind .trailingComma (d :: behind)
            else match _hk : readKey (d :: behind) with
              | .error f => .error f
              | .ok (next, behind) =>
                readValue (.members ((key, v) :: before) next :: stack) .value behind
        else failBehind .expectedMemberEnd (c :: rest)
termination_by cs.length
decreasing_by
  all_goals
    have h₁ := length_skipSpace_le cs
    rw [_h, List.length_cons] at h₁
    try
      have h₂ := length_skipSpace_le rest
      rw [_h', List.length_cons] at h₂
    try
      have h₃ := length_lt_of_readKey _hk
      rw [List.length_cons] at h₃
    try simp only [List.length_cons, List.length_drop]
    omega

/-- Makes sure that nothing but white space is left. -/
def readEnd {α : Type} (a : α) (cs : List Char) : Except Failure α :=
  match skipSpace cs with
  | [] => .ok a
  | rest => failBehind .trailingCharacters rest

def readText (cs : List Char) : Except Failure Json := do
  let (v, rest) ← readValue [] .value cs
  readEnd v rest

def parse (text : String) : Except Error Json :=
  (readText text.toList).mapError (·.locate text.toList)

/-- The members of the object that a text is.  What else it is is refused as soon as it shows. -/
def parseMembers (text : String) : Except Error (List (String × Json)) :=
  let refuse (v : Json) (rest : List Char) : Except Failure (List (String × Json)) :=
    failAt (.wrongKind v.describe "a map") rest
  let read : Except Failure (List (String × Json)) :=
    match skipSpace text.toList with
    | [] => failAt .endInValue []
    | c :: rest =>
      if c == '\x7b' then do
        match ← readText text.toList with
        | .object members => return members
        | v => refuse v (c :: rest)
      else if c == '[' then refuse (.array []) (c :: rest)
      else do
        let (v, n) ← readScalar c rest
        refuse v (rest.drop n)
  read.mapError (·.locate text.toList)

end Restyle.Json
