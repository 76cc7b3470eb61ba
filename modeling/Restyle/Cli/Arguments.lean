import Restyle.Entries

/-!
# Arguments of the command line

A command is named first; its path, flags and options follow in any order.  An
option takes its value from the same argument or from the next one, and next
arguments that start with a hyphen are no values.  Behind `--` everything is a
path.  The flag `-v` may come anywhere and any number of times, all others once.
-/

namespace Restyle.Cli

/-- What the program can be told to do. -/
inductive Command where
  /-- Convert a style sheet to a module. -/
  | toModule (path : String) (unit : Option String) (dashes lenient : Bool)
      (output : Option String)
  /-- Convert a JSON style object to a style sheet. -/
  | toCss (path : String) (output : Option String)
  /-- List the problems of a style sheet. -/
  | check (path : String)
  deriving Repr, DecidableEq

/-- What the arguments ask for. -/
inductive Request where
  | version
  | help
  | run (command : Command)
  deriving Repr, DecidableEq

/-- The arguments that a command knows. -/
structure Shape where
  flags : List String
  /-- Options with a value. -/
  options : List String
  deriving Repr, DecidableEq

structure Given where
  path : Option String := none
  flags : List String := []
  options : Entries String := []
  deriving Repr, DecidableEq

namespace Given

/-- Gives a path.  There is only one. -/
def addPath? (g : Given) (path : String) : Option Given :=
  if g.path.isSome then none else some { g with path := some path }

/-- Gives a flag, once. -/
def addFlag? (g : Given) (flag : String) : Option Given :=
  if g.flags.contains flag then none else some { g with flags := flag :: g.flags }

/-- Gives an option its value, once.  The name of a file to write is not empty. -/
def addOption? (g : Given) (option value : String) : Option Given :=
  if (g.options.get? option).isSome || (option == "output" && value == "") then none
  else some { g with options := g.options.insert option value }

end Given

/-- Whether an argument is more than a value: a hyphen and something behind it. -/
def isMarked (arg : String) : Bool :=
  match arg.toList with
  | '-' :: _ :: _ => true
  | _ => false

/-- The name and the attached value of an argument that starts with two hyphens. -/
def long? (arg : String) : Option (String × Option String) :=
  match arg.toList with
  | '-' :: '-' :: cs =>
    let name := String.ofList (cs.takeWhile (· != '='))
    match cs.dropWhile (· != '=') with
    | [] => some (name, none)
    | _ :: value => some (name, some (String.ofList value))
  | _ => none

/-- What a row of one-letter flags comes to. -/
inductive Letters where
  | plain
  | version
  | help
  /-- The option that takes the next argument. -/
  | wants
  /-- An option with its value in the same argument. -/
  | gives (value : String)
  | unknown

/-- Reads one-letter flags.  Only a command writes a file, and only what stands in front of a
command asks for the version. -/
def letters (inCommand writes : Bool) : List Char → Letters
  | [] => .plain
  | c :: cs =>
    if c == 'v' then letters inCommand writes cs
    else if c == 'h' then .help
    else if c == 'V' && !inCommand then .version
    else if c == 'o' && writes then
      match cs with
      | [] => .wants
      | '=' :: value => .gives (String.ofList value)
      | value => .gives (String.ofList value)
    else .unknown

/-- Outcome of reading the arguments of a command. -/
inductive Asked where
  | help
  | given (given : Given)

/-- Reads the arguments of a command, or none if they do not fit. -/
def readArguments (shape : Shape) (g : Given) (pathsOnly : Bool) : List String → Option Asked
  | [] => some (.given g)
  | arg :: rest =>
    if pathsOnly || !isMarked arg then
      (g.addPath? arg).bind (readArguments shape · pathsOnly rest)
    else if arg == "--" then readArguments shape g true rest
    else
      let takeNext (option : String) : Option Asked :=
        match rest with
        | [] => none
        | value :: rest =>
          if isMarked value then none
          else (g.addOption? option value).bind (readArguments shape · false rest)
      match long? arg with
      | some (name, value) =>
        if shape.options.contains name then
          match value with
          | some value => (g.addOption? name value).bind (readArguments shape · false rest)
          | none => takeNext name
        else if value.isSome then none
        else if name == "help" then some .help
        else if name == "verbose" then readArguments shape g false rest
        else if shape.flags.contains name then
          (g.addFlag? name).bind (readArguments shape · false rest)
        else none
      | none =>
        match letters true (shape.options.contains "output") (arg.toList.drop 1) with
        | .plain => readArguments shape g false rest
        | .help => some .help
        | .wants => takeNext "output"
        | .gives value => (g.addOption? "output" value).bind (readArguments shape · false rest)
        | .version | .unknown => none

/-- A request for a command from what has been given. -/
def request? (shape : Shape) (make : Given → String → Command) (args : List String) :
    Option Request :=
  (readArguments shape {} false args).bind fun
    | .help => some .help
    | .given g => g.path.map fun path => .run (make g path)

/-- What help can be asked about. -/
def helpTopics : List String := ["to-jss", "to-css", "check", "help"]

/-- What the arguments ask for, or none if they do not fit. -/
def Request.ofArguments? : List String → Option Request
  | [] => none
  | "to-jss" :: args =>
    request? ⟨["dashes", "lenient"], ["unit", "output"]⟩
      (fun g path => .toModule path (g.options.get? "unit") (g.flags.contains "dashes")
        (g.flags.contains "lenient") (g.options.get? "output")) args
  | "to-css" :: args =>
    request? ⟨[], ["output"]⟩ (fun g path => .toCss path (g.options.get? "output")) args
  | "check" :: args => request? ⟨[], []⟩ (fun _ path => .check path) args
  | ["help"] => some .help
  | ["help", topic] => if helpTopics.contains topic then some .help else none
  | "--version" :: _ => some .version
  | "--help" :: _ => some .help
  | "--verbose" :: args => Request.ofArguments? args
  | arg :: args =>
    if isMarked arg && (long? arg).isNone then
      match letters false false (arg.toList.drop 1) with
      | .plain => Request.ofArguments? args
      | .version => some .version
      | .help => some .help
      | _ => none
    else none

end Restyle.Cli
