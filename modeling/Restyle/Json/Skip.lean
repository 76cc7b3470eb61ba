import Restyle.Json.Reader

/-!
# Passing over values

A value that nobody asked for is passed over without being built.  Its brackets
have to match and its scalars have to be well formed, but its numbers may be of
any size, its escapes may be halves of surrogate pairs and its arrays and
objects may be nested to any depth.
-/

namespace Restyle.Json

/-- The length of a string behind its first quotation mark. -/
def skipString : List Char → Except Failure Nat
  | [] => failAt .endInString []
  | c :: cs =>
    if c == '"' then .ok 1
    else if c == '\\' then
      match cs with
      | [] => failAt .endInString []
      | d :: rest => do
        if d == 'u' then
          let _ ← readHex rest
          return 6 + (← skipString (rest.drop 4))
        else if (simpleEscape? d).isSome then return 2 + (← skipString rest)
        else failBehind .invalidEscape (d :: rest)
    else if c.toNat < 0x20 then failAt .controlCharacter (c :: cs)
    else do return 1 + (← skipString cs)
termination_by cs => cs.length

/-- How many digits start a text.  There has to be one, also at the end. -/
def skipDigits (cs : List Char) : Except Failure Nat :=
  match cs with
  | [] => failAt .invalidNumber []
  | c :: _ => if c.isDigit then .ok (Number.digitsLength cs) else failBehind .invalidNumber cs

/-- The length of a number from its sign on. -/
def skipNumber (cs : List Char) : Except Failure Nat := do
  let sign := if cs.head? == some '-' then 1 else 0
  let whole ← match cs.drop sign with
    | '0' :: c :: rest => if c.isDigit then failBehind .invalidNumber (c :: rest) else pure 1
    | rest => skipDigits rest
  let broken ← match cs.drop (sign + whole) with
    | '.' :: rest => do pure (sign + whole + 1 + (← skipDigits rest))
    | _ => pure (sign + whole)
  match cs.drop broken with
  | c :: rest =>
    if c == 'e' || c == 'E' then
      let mark := Number.signLength rest
      return broken + 1 + mark + (← skipDigits (rest.drop mark))
    else return broken
  | [] => return broken

/-- How many characters behind `c` belong to the scalar that starts with it. -/
def skipScalar (c : Char) (cs : List Char) : Except Failure Nat :=
  if c == '"' then skipString cs
  else if c == '-' || c.isDigit then do return (← skipNumber (c :: cs)) - 1
  else do return (← readScalar c cs).2

/-- Arrays and objects that are open. -/
inductive Open where
  | array
  | object
  deriving Repr, DecidableEq

/-- Passes over a key, without its quotation marks, and the colon behind it. -/
def skipKey (cs : List Char) : Except Failure (List Char) :=
  match skipSpace cs with
  | [] => failAt .endInObject []
  | c :: rest =>
    if c == '"' then do readColon (rest.drop (← skipString rest))
    else failBehind .keyNotString (c :: rest)

theorem length_lt_of_skipKey {cs rest : List Char} (h : skipKey cs = .ok rest) :
    rest.length < cs.length := by
  have hle := length_skipSpace_le cs
  unfold skipKey at h
  split at h
  · cases h
  · rename_i c behind hskip
    split at h
    · obtain ⟨n, -, h⟩ := exists_of_bind_eq_ok h
      have := length_lt_of_readColon h
      rw [hskip, List.length_cons] at hle
      simp only [List.length_drop] at this
      omega
    · cases h

/-- Passes over a value, or with `settled` over what follows one, to the end of the outermost value.
-/
def skipValue (stack : List Open) (settled : Bool) (cs : List Char) :
    Except Failure (List Char) :=
  if settled then
    match stack with
    | [] => .ok cs
    | .array :: stack =>
      match _h : skipSpace cs with
      | [] => failAt .endInArray []
      | c :: rest =>
        if c == ']' then skipValue stack true rest
        else if c == ',' then skipValue (.array :: stack) false rest
        else failBehind .expectedItemEnd (c :: rest)
    | .object :: stack =>
      match _h : skipSpace cs with
      | [] => failAt .endInObject []
      | c :: rest =>
        if c == '\x7d' then skipValue stack true rest
        else if c == ',' then
          match _hk : skipKey rest with
          | .error f => .error f
          | .ok behind => skipValue (.object :: stack) false behind
        else failBehind .expectedMemberEnd (c :: rest)
  else
    match _h : skipSpace cs with
    | [] => failAt .endInValue []
    | c :: rest =>
      if c == '[' then
        match _h' : skipSpace rest with
        | [] => failAt .endInArray []
        | d :: behind =>
          if d == ']' then skipValue stack true behind
          else skipValue (.array :: stack) false (d :: behind)
      else if c == '\x7b' then
        match _h' : skipSpace rest with
        | [] => failAt .endInObject []
        | d :: behind =>
          if d == '\x7d' then skipValue stack true behind
          else match _hk : skipKey (d :: behind) with
            | .error f => .error f
            | .ok behind => skipValue (.object :: stack) false behind
      else match skipScalar c rest with
        | .error f => .error f
        | .ok n => skipValue stack true (rest.drop n)
termination_by cs.length
decreasing_by
  all_goals
    have h₁ := length_skipSpace_le cs
    rw [_h, List.length_cons] at h₁
    try
      have h₂ := length_skipSpace_le rest
      rw [_h', List.length_cons] at h₂
    try
      have h₃ := length_lt_of_skipKey _hk
      try rw [List.length_cons] at h₃
    try simp only [List.length_cons, List.length_drop]
    omega

end Restyle.Json
