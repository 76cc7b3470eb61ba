import Restyle.Json.Value
import Restyle.Text.Quoted

/-!
# Refused JSON texts

Why a text is refused, and where.  A place is a line, counted from one, and a
number of bytes on that line.  Lines end at line feeds.
-/

namespace Restyle.Json

/-- Why a text or a value is refused. -/
inductive Cause where
  | endInValue
  | endInArray
  | endInObject
  | endInString
  | expectedWord
  | expectedValue
  | expectedColon
  | expectedItemEnd
  | expectedMemberEnd
  | keyNotString
  | trailingComma
  | trailingCharacters
  | invalidNumber
  | numberOutOfRange
  | invalidEscape
  | truncatedEscape
  | loneSurrogate
  | controlCharacter
  | tooDeep
  /-- A value of another kind than what is expected. -/
  | wrongKind (found expected : String)
  | duplicateField (name : String)
  | tooManyItems (count : Nat)
  /-- A value that is no style object. -/
  | notAnObject
  deriving Repr, DecidableEq

def Cause.message : Cause → String
  | .endInValue => "EOF while parsing a value"
  | .endInArray => "EOF while parsing a list"
  | .endInObject => "EOF while parsing an object"
  | .endInString => "EOF while parsing a string"
  | .expectedWord => "expected ident"
  | .expectedValue => "expected value"
  | .expectedColon => "expected `:`"
  | .expectedItemEnd => "expected `,` or `]`"
  | .expectedMemberEnd => "expected `,` or `\x7d`"
  | .keyNotString => "key must be a string"
  | .trailingComma => "trailing comma"
  | .trailingCharacters => "trailing characters"
  | .invalidNumber => "invalid number"
  | .numberOutOfRange => "number out of range"
  | .invalidEscape => "invalid escape"
  | .truncatedEscape => "unexpected end of hex escape"
  | .loneSurrogate => "lone leading surrogate in hex escape"
  | .controlCharacter => "control character (\\u0000-\\u001F) found while parsing a string"
  | .tooDeep => "recursion limit exceeded"
  | .wrongKind found expected => "invalid type: " ++ found ++ ", expected " ++ expected
  | .duplicateField name => "duplicate field `" ++ name ++ "`"
  | .tooManyItems count =>
    "invalid length " ++ toString count ++ ", expected fewer elements in array"
  | .notAnObject => "expected a style object or array"

structure Position where
  line : Nat
  column : Nat
  deriving Repr, DecidableEq

/-- The place behind the first bytes of a text, from a given place on. -/
def Position.advance (p : Position) : Nat → List Char → Position
  | 0, _ => p
  | _, [] => p
  | bytes + 1, c :: cs =>
    if c == '\n' then Position.advance ⟨p.line + 1, 0⟩ bytes cs
    else if bytes + 1 ≤ c.utf8Size then ⟨p.line, p.column + (bytes + 1)⟩
    else Position.advance ⟨p.line, p.column + c.utf8Size⟩ (bytes + 1 - c.utf8Size) cs
termination_by _ cs => cs.length

def byteLength (cs : List Char) : Nat :=
  cs.foldl (fun n c => n + c.utf8Size) 0

/-- A refusal while reading: the cause, what was left to read and how many of its bytes count as
read. -/
structure Failure where
  cause : Cause
  rest : List Char
  ahead : Nat
  deriving Repr, DecidableEq

/-- A refusal of a whole text or value. -/
structure Error where
  cause : Cause
  position : Option Position
  deriving Repr, DecidableEq

/-- The place of a failure in the text that was read. -/
def Failure.locate (f : Failure) (text : List Char) : Error :=
  ⟨f.cause, some (Position.advance ⟨1, 0⟩
    (byteLength text - byteLength f.rest + f.ahead) text)⟩

def Error.message (e : Error) : String :=
  match e.position with
  | none => e.cause.message
  | some p => e.cause.message ++ " at line " ++ toString p.line ++ " column " ++ toString p.column

def Error.describe (e : Error) : String :=
  "JSON error: " ++ e.message

/-- What kind of value a value is, in the words of a refusal. -/
def describe : Json → String
  | .null => "null"
  | .boolean b => "boolean `" ++ (if b then "true" else "false") ++ "`"
  | .integer n => "integer `" ++ String.ofList (integerText n) ++ "`"
  | .double n => "floating point `" ++ String.ofList (doubleText n) ++ "`"
  | .string s => "string " ++ Text.quoted s
  | .array _ => "sequence"
  | .object _ => "map"

end Restyle.Json
