import Restyle.Css.Token
import Restyle.Number.Numeral

/-!
# From text to tokens

`Token.scan` reads the token at the front of a text: its kind and how many
characters it takes after the first.  `Token.lex` cuts a whole text into tokens;
nothing is lost, for the texts of the tokens add up to the text.
-/

namespace Restyle.Css.Token

/-- Characters that may not stand in an unquoted address. -/
def isBarredInUrl (c : Char) : Bool :=
  let n := c.toNat
  (1 ≤ n && n ≤ 8) || n == 0x0B || (0x0E ≤ n && n ≤ 0x1F) || n == 0x7F ||
    c == '"' || n == 0x27 || c == '('

def isQuote (c : Char) : Bool :=
  c == '"' || c.toNat == 0x27

def spaceLength (cs : List Char) : Nat :=
  (cs.takeWhile isSpace).length

/-- The length of a comment behind its `/*`, end mark included. -/
def commentLength : List Char → Nat
  | [] => 0
  | '*' :: '/' :: _ => 2
  | _ :: cs => 1 + commentLength cs

/-- The kind and length of a string behind its opening quote. -/
def scanString (quote : Char) : List Char → Kind × Nat
  | [] => (.string, 0)
  | c :: cs =>
    if c == quote then (.string, 1)
    else if isNewline c then (.badString, 0)
    else if c == '\\' then
      let n := if startsNewline cs then newlineLength cs else escapeLength cs
      let (kind, m) := scanString quote (cs.drop n)
      (kind, 1 + n + m)
    else
      let (kind, m) := scanString quote cs
      (kind, 1 + m)
termination_by cs => cs.length

/-- The length of what is left of a bad address: up to a closing bracket that is not escaped. -/
def badUrlLength : List Char → Nat
  | [] => 0
  | ')' :: _ => 1
  | '\\' :: ')' :: cs => 2 + badUrlLength cs
  | '\\' :: '\\' :: cs => 2 + badUrlLength cs
  | _ :: cs => 1 + badUrlLength cs

/-- The kind and length of an address from the white space behind its text on. -/
def scanUrlEnd (cs : List Char) : Kind × Nat :=
  let n := spaceLength cs
  match cs.drop n with
  | [] => (.url, n)
  | c :: rest => if c == ')' then (.url, n + 1) else (.badUrl, n + 1 + badUrlLength rest)

/-- The kind and length of an unquoted address from its text on. -/
def scanUrl : List Char → Kind × Nat
  | [] => (.url, 0)
  | c :: cs =>
    if c == ')' then (.url, 1)
    else if isSpace c then scanUrlEnd (c :: cs)
    else if isBarredInUrl c then (.badUrl, 1 + badUrlLength cs)
    else if c == '\\' then
      if startsNewline cs then (.badUrl, 1 + badUrlLength cs)
      else
        let n := escapeLength cs
        let (kind, m) := scanUrl (cs.drop n)
        (kind, 1 + n + m)
    else
      let (kind, m) := scanUrl cs
      (kind, 1 + m)
termination_by cs => cs.length

/-- The kind and length of an identifier or of what its name and a round bracket begin.  The
name `url` begins an address unless a quotation mark follows. -/
def scanIdent (cs : List Char) : Kind × Nat :=
  let n := nameLength cs
  match cs.drop n with
  | '(' :: rest =>
    let blanks := spaceLength rest
    let quoted := ((rest.drop blanks).head?.map isQuote).getD false
    if asciiLower (Name.decode (cs.take n)) == ['u', 'r', 'l'] && !quoted then
      let (kind, m) := scanUrl (rest.drop blanks)
      (kind, n + 1 + blanks + m)
    else (.function, n + 1)
  | _ => (.ident, n)

/-- The fraction of a number: a point with digits behind it. -/
def fractionLength : List Char → Nat
  | '.' :: cs => match Number.digitsLength cs with
    | 0 => 0
    | n + 1 => n + 2
  | _ => 0

/-- The length of the number at the front of a text, zero if there is none. -/
def numberLength (cs : List Char) : Nat :=
  let sign := Number.signLength cs
  let whole := sign + Number.digitsLength (cs.drop sign)
  let broken := whole + fractionLength (cs.drop whole)
  if broken = sign then 0 else broken + Number.exponentLength (cs.drop broken)

/-- The kind and length of a number of `n` characters with the unit behind it. -/
def scanUnit (n : Nat) (cs : List Char) : Kind × Nat :=
  match cs.drop n with
  | '%' :: _ => (.percentage, n + 1)
  | rest => if startsIdent rest then (.dimension, n + nameLength rest) else (.number, n)

/-- The kind of a token that is one character. -/
def singleKind (c : Char) : Kind :=
  match c with
  | ':' => .colon
  | ';' => .semicolon
  | ',' => .comma
  | '(' => .opening .round
  | '[' => .opening .square
  | '\x7b' => .opening .curly
  | ')' => .closing .round
  | ']' => .closing .square
  | '\x7d' => .closing .curly
  | _ => .delimiter

/-- Whether a character and a following `=` compare attributes. -/
def isComparison (c : Char) : Bool :=
  c == '~' || c == '|' || c == '^' || c == '$' || c == '*'

/-- The token that starts with `c`: its kind and how many characters of `cs` belong to it. -/
def scan (c : Char) (cs : List Char) : Kind × Nat :=
  let behind (scanned : Kind × Nat) := (scanned.1, scanned.2 - 1)
  if isSpace c then (.whiteSpace, spaceLength cs)
  else if isQuote c then scanString c cs
  else if c == '#' then
    let named := startsIdent cs || (cs.head?.map fun d => d.isDigit || d == '-').getD false
    if named then (.hash, nameLength cs) else (.delimiter, 0)
  else if c == '@' then
    if startsIdent cs then (.atKeyword, nameLength cs) else (.delimiter, 0)
  else if c == '/' && cs.head? == some '*' then (.comment, 1 + commentLength (cs.drop 1))
  else if numberLength (c :: cs) != 0 then behind (scanUnit (numberLength (c :: cs)) (c :: cs))
  else if c == '-' && ['-', '>'].isPrefixOf cs then (.closeMark, 2)
  else if c == '<' && ['!', '-', '-'].isPrefixOf cs then (.openMark, 3)
  else if startsIdent (c :: cs) then behind (scanIdent (c :: cs))
  else if isComparison c && cs.head? == some '=' then (.comparison, 1)
  else (singleKind c, 0)

/-- The tokens of a text that starts at a given place. -/
def lex (loc : Location) : List Char → List Token
  | [] => []
  | c :: cs =>
    let (kind, n) := scan c cs
    let text := c :: cs.take n
    ⟨kind, text, loc⟩ :: lex (loc.advance text) (cs.drop n)
termination_by cs => cs.length

/-- Cutting a text into tokens loses nothing. -/
theorem flatMap_text_lex (loc : Location) (cs : List Char) :
    (lex loc cs).flatMap text = cs := by
  fun_induction lex loc cs with
  | case1 => rfl
  | case2 loc c cs kind n h text ih => simp [text, ih]

end Restyle.Css.Token
