import Restyle.Cli.Arguments
import Restyle.Cli.Host
import Restyle.Convert

/-!
# Running a command

A command reads one text and writes one, to a file or to standard output.
`check` writes the problems of a style sheet to standard error.  Nothing is
written unless the conversion has succeeded, but then writing may still fail.
-/

namespace Restyle.Cli

/-- The path that stands for standard input. -/
def standardInput : String := "-"

def version : String := "0.3.0"

/-- What the program prints when it is asked for its version. -/
def versionLine : String := "cssjss " ++ version ++ "\n"

/-- What the program prints when it is asked for help. -/
def helpText : String :=
  "Convert between CSS and JSS style objects\n\n" ++
    "Usage: cssjss [-v] <COMMAND>\n\n" ++
    "Commands:\n" ++
    "  to-jss [--unit UNIT] [--dashes] [--lenient] [-o OUTPUT] PATH\n" ++
    "  to-css [-o OUTPUT] PATH\n" ++
    "  check PATH\n"

/-- How a run ends: the exit code and what it says on standard error. -/
structure Ending where
  exit : Nat
  stderr : String := ""
  deriving Repr, DecidableEq

/-- The name of a source in messages. -/
def displayName (path : String) : String :=
  if path == standardInput then "<stdin>" else path

def failed (message : String) : Ending :=
  { exit := 1, stderr := "Error: " ++ message ++ "\n" }

/-- What is said of a style sheet that cannot be converted. -/
def cssFailure (path : String) (p : Css.Problem) : Ending :=
  failed ("failed to convert " ++ displayName path ++ ": " ++ p.describe)

/-- What is said of a JSON text that cannot be converted: the refusal and, as its source, the same
refusal again. -/
def jsonFailure (path : String) (e : Json.Error) : Ending :=
  failed ("failed to convert " ++ displayName path ++ ": " ++ e.describe ++ ": " ++ e.message)

def problemLine (name : String) (p : Css.Problem) : String :=
  name ++ ":" ++ toString p.location.line ++ ":" ++ toString p.location.column ++ ": " ++
    p.message ++ "\n"

/-- The problems of a style sheet, as a silent reader notes them. -/
def problemsOf (css name : String) : List Css.Problem :=
  match Css.Stylesheet.parse css ⟨some name, true⟩ with
  | .ok sheet => sheet.problems
  | .error p => [p]

/-- What `check` says of a style sheet. -/
def checked (css name : String) : Ending :=
  let problems := problemsOf css name
  if problems.isEmpty then { exit := 0, stderr := "OK: " ++ name ++ "\n" }
  else { exit := 1, stderr := String.join (problems.map (problemLine name)) }

/-- How a run ends that has got as far as to write. -/
def written (output : Option String) : Except FileError Unit → Ending
  | .ok () => { exit := 0 }
  | .error e => failed ("failed to write " ++ output.getD "stdout" ++ ": " ++ e.message)

def moduleOptions (path : String) (unit : Option String) (dashes lenient : Bool) : Options :=
  ⟨unit, dashes, ⟨some (displayName path), lenient⟩⟩

section

variable {m : Type → Type} [Monad m]

/-- The text at a path, or how the run ends without it. -/
def source (host : Host m) (path : String) : m (Except Ending String) := do
  if path == standardInput then
    match ← host.input with
    | .ok text => return .ok text
    | .error e => return .error (failed ("failed to read stdin: " ++ e.message))
  match ← host.read path with
  | .ok text => return .ok text
  | .error e => return .error (failed ("failed to read " ++ path ++ ": " ++ e.message))

/-- Delivers a text to a file or to standard output. -/
def deliver (host : Host m) (output : Option String) (text : String) : m Ending :=
  written output <$> output.elim (host.print text) (host.write · text)

/-- Reads a text, converts it and delivers the result. -/
def convert (host : Host m) (path : String) (output : Option String)
    (conversion : String → Except Ending String) : m Ending := do
  match ← source host path with
  | .error ending => return ending
  | .ok text =>
    match conversion text with
    | .error ending => return ending
    | .ok result => deliver host output result

def run (host : Host m) : Command → m Ending
  | .toModule path unit dashes lenient output =>
    convert host path output fun css =>
      (Convert.moduleOfCss css (moduleOptions path unit dashes lenient)).mapError (cssFailure path)
  | .toCss path output =>
    convert host path output fun json => (Convert.cssOfJson json).mapError (jsonFailure path)
  | .check path => do
    match ← source host path with
    | .error ending => return ending
    | .ok css => return checked css (displayName path)

/-- Does what the arguments ask for.  Arguments that do not fit end with code 2, and nobody minds
whether the version or the help gets through. -/
def main (host : Host m) (args : List String) : m Ending := do
  match Request.ofArguments? args with
  | none => return { exit := 2, stderr := helpText }
  | some .version =>
    let _ ← host.print versionLine
    return { exit := 0 }
  | some .help =>
    let _ ← host.print helpText
    return { exit := 0 }
  | some (.run command) => run host command

end

/-- Does what the arguments ask for in a file system with faults. -/
def runIn (fs : FileSystem) (faults : Faults) (input : ByteArray) (args : List String) :
    Ending × World :=
  (main (World.host faults input) args).run ⟨fs, .empty⟩

/-- How a run ends, with what has come out on standard output. -/
structure Outcome extends Ending where
  stdout : String := ""
  deriving Repr, DecidableEq

/-- Does what the arguments ask for in a directory without faults. -/
def mainIn (d : Directory) (input : String) (args : List String) : Outcome × Directory :=
  let (ending, world) := runIn d.toFileSystem {} input.toUTF8 args
  ({ ending with stdout := (textOf world.printed).toOption.getD "" }, .ofFileSystem world.files)

end Restyle.Cli
