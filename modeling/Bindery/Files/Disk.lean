import Bindery.Files.Node
import Bindery.Files.Path

/-!
# File systems

A file system as a value: what stands below its root, and the directory at which relative paths
start.

* `Disk.locate`: the place that a path leads to, for which all directories on the way must exist.
* `Disk.readText`, `Disk.makeDirs`, `Disk.writeText`: the operations.
* `FileStep`, `Disk.perform`, `Disk.performAll`: operations as data; what was written stays written
  when a later one fails.
-/

namespace Bindery

/-- A file system, and the directory in it at which relative paths start. -/
structure Disk where
  root : Node
  home : Location
deriving DecidableEq

namespace Disk

/-- A file system with nothing but the directory at which relative paths start. -/
def empty (home : Location) : Disk :=
  ⟨Node.empty.put home .empty, home⟩

/-- What stands at a place. -/
def node? (d : Disk) (l : Location) : Option Node :=
  d.root.at? l

/-- A file system with something put at a place. -/
def put (d : Disk) (l : Location) (n : Node) : Disk :=
  { d with root := d.root.put l n }

/-- The files below the directory at which relative paths start, with their places in it. -/
def files (d : Disk) : List (Location × Contents) :=
  ((d.node? d.home).map Node.files).getD []

/-- Where a path starts. -/
def start (d : Disk) (path : String) : Location :=
  if Path.isAbsolute path then [] else d.home

/-- Why a path is refused as a whole. -/
def refusal? (path : String) : Option FileFault :=
  if '\x00' ∈ path.toList then some .badPath
  else if Path.maxBytes < path.utf8ByteSize then some .nameTooLong
  else none

/-- Follows names from a directory; all but the last must be directories. Two points lead to the
directory above, and at the root they stay there. -/
def follow (d : Disk) : Location → List String → Except FileFault Location
  | l, [] => .ok l
  | l, "." :: rest => follow d l rest
  | l, ".." :: rest => follow d l.dropLast rest
  | l, name :: rest =>
    if Path.maxNameBytes < name.utf8ByteSize then .error .nameTooLong
    else
      let next := l ++ [name]
      if rest.isEmpty then .ok next
      else
        match d.node? next with
        | some (.directory _) => follow d next rest
        | some (.file _) => .error .notADirectory
        | none => .error .notFound

/-- The place that a path leads to. -/
def locate (d : Disk) (path : String) : Except FileFault Location :=
  match refusal? path with
  | some fault => .error fault
  | none => if path = "" then .error .notFound else d.follow (d.start path) (Path.names path)

/-- The text of a file. -/
def readText (d : Disk) (path : String) : Except FileFault String := do
  let l ← d.locate path
  match d.node? l with
  | some (.file contents) =>
    if Path.endsInSlash path then .error .notADirectory
    else
      match contents with
      | .text s => .ok s
      | .bytes _ => .error .notText
  | some (.directory _) => .error .isADirectory
  | none => .error .notFound

/-- Makes the directories that are missing on a way. The whole way is tried first, so that a file
which stands in it is no directory; once something was missing the way is made name by name, and
such a file is in the place of a directory. A name with a single point behind it is not made. -/
def makeMissing (d : Disk) (made : Bool) : Location → List String → Option FileFault × Disk
  | _, [] => (none, d)
  | l, "." :: rest => makeMissing d made l rest
  | l, ".." :: rest => makeMissing d made l.dropLast rest
  | l, name :: rest =>
    if Path.maxNameBytes < name.utf8ByteSize then (some .nameTooLong, d)
    else
      let next := l ++ [name]
      match d.node? next, rest with
      | some (.directory _), rest => makeMissing d made next rest
      | some (.file _), [] => (some .alreadyExists, d)
      | some (.file _), ["."] => (some .notADirectory, d)
      | some (.file _), _ => (some (if made then .alreadyExists else .notADirectory), d)
      | none, ["."] => (some .notFound, d)
      | none, rest => makeMissing (d.put next .empty) true next rest

/-- Makes a directory and those above it; what was made stays if it fails. -/
def makeDirs (d : Disk) (path : String) : Option FileFault × Disk :=
  match refusal? path with
  | some fault => (some fault, d)
  | none => d.makeMissing false (d.start path) (Path.names path)

/-- Replaces the whole contents of a file, or makes it. -/
def writeText (d : Disk) (path text : String) : Except FileFault Disk := do
  let l ← d.locate path
  match d.node? l with
  | some (.directory _) => .error .isADirectory
  | _ =>
    if Path.endsInSlash path then .error .isADirectory
    else .ok (d.put l (.file (.text text)))

end Disk

/-- An operation on files. -/
inductive FileStep where
  | makeDirs (path : String)
  | write (path : String) (text : String)
deriving DecidableEq, Repr

/-- The path that an operation writes a file to. -/
def FileStep.written? : FileStep → Option String
  | makeDirs _ => none
  | write path _ => some path

namespace Disk

/-- Performs an operation. -/
def perform (d : Disk) : FileStep → Option FileFault × Disk
  | .makeDirs path => d.makeDirs path
  | .write path text =>
    match d.writeText path text with
    | .ok d => (none, d)
    | .error fault => (some fault, d)

/-- Performs operations up to the first that fails. -/
def performAll (d : Disk) : List FileStep → Option FileFault × Disk
  | [] => (none, d)
  | s :: ss =>
    match d.perform s with
    | (none, d) => performAll d ss
    | (some fault, d) => (some fault, d)

end Disk

end Bindery
