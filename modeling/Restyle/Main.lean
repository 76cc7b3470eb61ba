import Restyle.Cli.Run

/-!
# The program

The command line over the files and streams of the system.
-/

namespace Restyle.Cli

/-- Whether an error code, with either sign, is a given one. -/
def isCode (code known : UInt32) : Bool :=
  code == known || code == 0 - known

/-- A system error in the words of a file error. -/
def FileError.ofSystem (e : IO.Error) : FileError :=
  match e with
  | .noFileOrDirectory _ _ _ => .notFound
  | .inappropriateType _ code _ => if isCode code 20 then .notDirectory else .isDirectory
  | .invalidArgument _ code _ => if isCode code 36 then .nameTooLong else .other (toString e)
  | e => .other (toString e)

/-- The files and the standard streams of the system. -/
def systemHost : Host IO where
  input := do
    try
      return textOf (← (← IO.getStdin).readBinToEnd)
    catch e => return .error (.ofSystem e)
  read path := do
    try
      return textOf (← IO.FS.readBinFile path)
    catch e => return .error (.ofSystem e)
  write path text := do
    try
      IO.FS.writeFile path text
      return .ok ()
    catch e => return .error (.ofSystem e)
  print text := do
    try
      let output ← IO.getStdout
      output.putStr text
      output.flush
      return .ok ()
    catch e => return .error (.ofSystem e)

end Restyle.Cli

open Restyle.Cli in
/-- Runs the program. -/
def main (args : List String) : IO UInt32 := do
  let ending ← Restyle.Cli.main systemHost args
  IO.eprint ending.stderr
  return ending.exit.toUInt32
