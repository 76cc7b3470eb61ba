import Restyle.Json.Record
import Restyle.Options

/-!
# Options in JSON

Options are a record with the fields `unit`, `dashes` and `parse`; the last one
is a record with the fields `source` and `silent`.
-/

namespace Restyle

open Json (Field Record)

/-- A text, or `null` for none. -/
def Json.optionalText? : Json → Option (Option String)
  | .null => some none
  | .string s => some (some s)
  | _ => none

/-- A truth value. -/
def Json.flag? : Json → Option Bool
  | .boolean b => some b
  | _ => none

/-- The record of how a style sheet is to be read. -/
def Css.ReadOptions.record : Record Css.ReadOptions where
  label := "struct ParseOptions"
  fields := [
    Field.scalar "source" "a string" Json.optionalText? fun o source => { o with source },
    Field.scalar "silent" "a boolean" Json.flag? fun o silent => { o with silent }]
  blank := {}

namespace Options

def record : Record Options where
  label := "struct ConvertOptions"
  fields := [
    Field.scalar "unit" "a string" Json.optionalText? fun o unit => { o with unit },
    Field.scalar "dashes" "a boolean" Json.flag? fun o dashes => { o with dashes },
    Css.ReadOptions.record.asField "parse" fun o read => { o with read }]
  blank := {}

def ofJson (v : Json) : Except Json.Cause Options :=
  record.ofJson v

def parse (text : String) : Except Json.Error Options :=
  record.parse text

end Options

end Restyle
