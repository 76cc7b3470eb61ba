import Restyle.Cli.FileSystem

/-!
# The world of a run

`Host` is what a command needs of the world: its standard streams, and files by path.  A `World` is a file
system and what has come out on standard output, and with some faults it is a host.

A file is opened before it is written, and it is emptied then.  So a fault that comes before or with the
opening changes nothing, and one that comes after it leaves the front of the text (`Break`).  Standard
output is open from the start.

A run is alone in its world: nobody else writes to the tree in the meantime, reading takes nothing away,
standard output is no file of the tree, and what is said on standard error always gets through.
-/

namespace Restyle.Cli

/-- What a command needs of the world. -/
structure Host (m : Type → Type) where
  input : m (Except FileError String)
  read : String → m (Except FileError String)
  write : String → String → m (Except FileError Unit)
  /-- Writes to standard output. -/
  print : String → m (Except FileError Unit)

/-- A fault in the midst of writing. -/
structure Break where
  /-- How many bytes get through. -/
  got : Nat
  error : FileError
  deriving Repr, DecidableEq

/-- What stands in the way of a run besides files that are not there. -/
structure Faults where
  /-- Why standard input cannot be read. -/
  input : Option FileError := none
  /-- Why a path cannot be opened or read. -/
  reading : String → Option FileError := fun _ => none
  /-- Why a path cannot be opened for writing. -/
  opening : String → Option FileError := fun _ => none
  /-- Where writing breaks off at a path that has been opened. -/
  writing : String → Option Break := fun _ => none
  /-- Where writing to standard output breaks off. -/
  printing : Option Break := none

/-- What gets through of a content. -/
def through (stop : Option Break) (content : ByteArray) : ByteArray :=
  stop.elim content fun stop => content.extract 0 stop.got

/-- How writing ends. -/
def verdict (stop : Option Break) : Except FileError Unit :=
  stop.elim (.ok ()) fun stop => .error stop.error

structure World where
  files : FileSystem
  /-- What has come out on standard output. -/
  printed : ByteArray := .empty

namespace World

def print (w : World) (content : ByteArray) : World :=
  { w with printed := w.printed ++ content }

/-- Writes a content to what has been opened, as all that it holds. -/
def write (w : World) : FileSystem.Target → ByteArray → World
  | .file place, content => { w with files := w.files.put place content }
  | .device device, content => if device.isOutput then w.print content else w

/-- A world with faults as that of a command, with some bytes on standard input. -/
def host (faults : Faults) (input : ByteArray) : Host (StateM World) where
  input := pure (faults.input.elim (textOf input) .error)
  read path := do
    let w ← get
    return (faults.reading path).elim (w.files.read path >>= textOf) .error
  write path text := do
    let w ← get
    match (faults.opening path).elim (w.files.target path) .error with
    | .error e => return .error e
    | .ok target =>
      set (w.write target (through (faults.writing path) text.toUTF8))
      return verdict (faults.writing path)
  print text := do
    modify fun w => w.print (through faults.printing text.toUTF8)
    return verdict faults.printing

end World

/-! ## One directory -/

/-- A directory: the texts of files under their paths. -/
structure Directory where
  files : Entries String
  deriving Repr, DecidableEq

namespace Directory

/-- Where the directory stands. -/
def place : Place := ["tmp", "directory"]

/-- What stands around it. -/
def surroundings : Entries Node :=
  [("tmp", .directory), ("tmp/directory", .directory), ("dev", .directory), ("dev/null", .device {}),
    ("dev/stdout", .device { isOutput := true })]

/-- Puts a file behind a row of names from a place on, with the directories on the way. -/
def addFile (nodes : Entries Node) (content : ByteArray) (place : Place) : List String → Entries Node
  | [] => nodes.insert (join place) (.file content)
  | name :: names =>
    addFile (nodes.insert (join place) .directory) content (place ++ [name]) names

/-- The file system in which a directory is the one that paths start from. -/
def toFileSystem (d : Directory) : FileSystem where
  nodes := d.files.foldl (fun nodes f => addFile nodes f.2.toUTF8 place (splitPath f.1)) surroundings
  here := place

/-- The files in the directory that paths start from. -/
def ofFileSystem (fs : FileSystem) : Directory where
  files := fs.nodes.filterMap fun (key, node) =>
    match node, key.dropPrefix? (join fs.here ++ "/") with
    | .file content, some name => (textOf content).toOption.map fun text => (name.toString, text)
    | _, _ => none

end Directory

end Restyle.Cli
