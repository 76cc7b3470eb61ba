import Restyle.Css.Name

/-!
# Tokens

A style sheet is a row of tokens.  A token keeps the text it was read from, so
that selectors, preludes and values can be given back as they were written.
-/

namespace Restyle.Css

inductive Bracket where
  | round
  | square
  | curly
  deriving Repr, DecidableEq

namespace Token

inductive Kind where
  | whiteSpace
  | comment
  | ident
  | atKeyword
  | hash
  | string
  /-- A string cut off by a line end. -/
  | badString
  | url
  /-- An unquoted address with a quote, a bracket, white space or a control character in it. -/
  | badUrl
  | number
  | percentage
  | dimension
  /-- One of the attribute comparisons `~=`, `|=`, `^=`, `$=` and `*=`. -/
  | comparison
  | delimiter
  | colon
  | semicolon
  | comma
  /-- The mark `<!--`. -/
  | openMark
  /-- The mark `-->`. -/
  | closeMark
  /-- A name and the round bracket behind it. -/
  | function
  | opening (bracket : Bracket)
  | closing (bracket : Bracket)
  deriving Repr, DecidableEq

def Kind.opens? : Kind → Option Bracket
  | .function => some .round
  | .opening b => some b
  | _ => none

def Kind.closes? : Kind → Option Bracket
  | .closing b => some b
  | _ => none

end Token

/-- A token: its kind, its text as written and the place where it starts. -/
structure Token where
  kind : Token.Kind
  text : List Char
  start : Location
  deriving Repr, DecidableEq

namespace Token

/-- The place just after the token. -/
def stop (t : Token) : Location :=
  t.start.advance t.text

/-- The keyword of an at-keyword: escapes decoded, ASCII letters in lower case. -/
def keyword (t : Token) : List Char :=
  asciiLower (Name.decode (t.text.drop 1))

/-- The two characters that end a comment. -/
def commentEnd : List Char := ['*', '/']

/-- Whether the text of a comment reaches its end mark. -/
def endsComment (text : List Char) : Bool :=
  4 ≤ text.length && commentEnd.isSuffixOf text

/-- What a comment says: its text without the marks around it. -/
def commentBody (text : List Char) : List Char :=
  let body := text.drop 2
  if endsComment text then body.take (body.length - 2) else body

end Token

end Restyle.Css
