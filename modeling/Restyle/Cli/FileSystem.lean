import Restyle.Entries

/-!
# Files

A file system is a tree of directories, files, devices and links, each at a place of its own, with one
directory that paths start from.  A path is followed name by name: only a directory leads on, `..` goes
back, and a link goes on with the path that it holds.

Left out are hard links, that is, one file at two places.  Who may open what is no part of the tree; a run
is told of it with its other faults (`Faults`).
-/

namespace Restyle.Cli

/-- Why a file cannot be read or written. -/
inductive FileError where
  | notFound
  | notDirectory
  | isDirectory
  | nameTooLong
  | tooManyLinks
  /-- The bytes of the file are no text. -/
  | notText
  | other (message : String)
  deriving Repr, DecidableEq

def FileError.message : FileError → String
  | .notFound => "No such file or directory (os error 2)"
  | .notDirectory => "Not a directory (os error 20)"
  | .isDirectory => "Is a directory (os error 21)"
  | .nameTooLong => "File name too long (os error 36)"
  | .tooManyLinks => "Too many levels of symbolic links (os error 40)"
  | .notText => "stream did not contain valid UTF-8"
  | .other message => message

/-- The text that bytes stand for. -/
def textOf (bytes : ByteArray) : Except FileError String :=
  match String.fromUTF8? bytes with
  | some text => .ok text
  | none => .error .notText

/-! ## Paths -/

/-- The most bytes in a path. -/
def longestPath : Nat := 4095

/-- The most bytes in one name of a path. -/
def longestName : Nat := 255

/-- The most links on the way of a path. -/
def mostLinks : Nat := 40

/-- The texts between the slashes of a text. -/
def betweenSlashes : List Char → List (List Char)
  | [] => [[]]
  | c :: cs =>
    if c == '/' then [] :: betweenSlashes cs
    else match betweenSlashes cs with
      | [] => [[c]]
      | first :: others => (c :: first) :: others

/-- The names between the slashes of a path.  The first is empty if the path starts at the root,
the last if it ends in a slash. -/
def splitPath (path : String) : List String :=
  (betweenSlashes path.toList).map String.ofList

/-- The names of a path that is neither empty nor too long. -/
def namesOf (path : String) : Except FileError (List String) :=
  if path.isEmpty then .error .notFound
  else if longestPath < path.utf8ByteSize then .error .nameTooLong
  else .ok (splitPath path)

/-- Whether a name can only stand for a directory. -/
def isDirectoryName (name : String) : Bool :=
  name == "" || name == "." || name == ".."

/-- The names on the way to the last one of a row.  Slashes behind the last name belong to it. -/
def wayTo (names : List String) : List String :=
  ((names.reverse.dropWhile (·.isEmpty)).drop 1).reverse

/-- The names on the way from the root to a place. -/
abbrev Place : Type := List String

def join (place : Place) : String :=
  "/".intercalate place

/-! ## The tree -/

/-- Something with a name that keeps nothing of what is written to it. -/
structure Device where
  /-- What is read of it. -/
  content : ByteArray := .empty
  /-- Whether what is written to it comes out on standard output. -/
  isOutput : Bool := false

inductive Node where
  | directory
  | file (content : ByteArray)
  | device (device : Device)
  /-- A path that is followed instead. -/
  | link (path : String)

structure FileSystem where
  /-- What stands at each place but the root, which is a directory. -/
  nodes : Entries Node
  /-- The directory where paths start that do not start at the root. -/
  here : Place

namespace FileSystem

def node? (fs : FileSystem) (place : Place) : Option Node :=
  if place.isEmpty then some .directory else fs.nodes.get? (join place)

def isDirectory (fs : FileSystem) (place : Place) : Bool :=
  match fs.node? place with
  | some .directory => true
  | _ => false

/-- The path that a link at a place holds. -/
def link? (fs : FileSystem) (place : Place) : Option String :=
  match fs.node? place with
  | some (.link path) => some path
  | _ => none

/-- The place one name further on.  Only a directory leads on, and the root has nothing above it. -/
def step (fs : FileSystem) (place : Place) (name : String) : Except FileError Place :=
  if !fs.isDirectory place then
    .error (if (fs.node? place).isSome then .notDirectory else .notFound)
  else if name == "" || name == "." then .ok place
  else if name == ".." then .ok place.dropLast
  else if longestName < name.utf8ByteSize then .error .nameTooLong
  else .ok (place ++ [name])

/-- The place that a row of names leads to, given how a row is followed behind a link. -/
def walk (fs : FileSystem) (behindLink : Place → List String → Except FileError Place) :
    Place → List String → Except FileError Place
  | place, [] => .ok place
  | place, name :: names => do
    let next ← fs.step place name
    match fs.link? next with
    | none => walk fs behindLink next names
    | some path => do
      let way ← namesOf path
      behindLink (if way.head? == some "" then [] else next.dropLast) (way ++ names)

/-- The place that a row of names leads to over at most so many links. -/
def follow (fs : FileSystem) : Nat → Place → List String → Except FileError Place
  | 0 => fs.walk fun _ _ => .error .tooManyLinks
  | links + 1 => fs.walk (fs.follow links)

/-- The place that the names of a path lead to. -/
def place (fs : FileSystem) (names : List String) : Except FileError Place :=
  fs.follow mostLinks (if names.head? == some "" then [] else fs.here) names

/-- What the file at a path holds. -/
def read (fs : FileSystem) (path : String) : Except FileError ByteArray := do
  match fs.node? (← fs.place (← namesOf path)) with
  | some (.file content) => return content
  | some (.device device) => return device.content
  | some .directory => throw .isDirectory
  | some (.link _) | none => throw .notFound

/-- What a path leads to that is opened for writing. -/
inductive Target where
  /-- A file that is there or that can be made. -/
  | file (place : Place)
  | device (device : Device)

/-- Opens a path for writing.  A path whose last name can only stand for a directory is refused as one,
whether it is there or not, as long as the way to it is there.  A link to such a path is refused too, with
the message that reading it gives. -/
def target (fs : FileSystem) (path : String) : Except FileError Target := do
  let names ← namesOf path
  if isDirectoryName (names.getLastD "") then
    let _ ← fs.place (wayTo names ++ ["."])
    throw .isDirectory
  let place ← fs.place names
  match fs.node? place with
  | some (.file _) | none => return .file place
  | some (.device device) => return .device device
  | some .directory => throw .isDirectory
  | some (.link _) => throw .notFound

/-- Puts a file with a content at a place. -/
def put (fs : FileSystem) (place : Place) (content : ByteArray) : FileSystem :=
  { fs with nodes := fs.nodes.insert (join place) (.file content) }

end FileSystem

end Restyle.Cli
