import Bindery.Text.Pieces

/-!
# Paths

A path is a text with slashes between its names. It starts at the root if it begins with a slash.
Why a file at a path could not be read or written is said in the words of the operating system.

* `Path.join`: a path below a directory; an absolute path stands for itself.
* `Path.names`: the names on the way that a path describes.
* `Path.maxBytes`, `Path.maxNameBytes`: how long a path and its names may be.
* `FileFault`: why an operation on files failed.
-/

namespace Bindery

namespace Path

/-- Whether a path starts at the root. -/
def isAbsolute (path : String) : Bool :=
  path.toList.head? == some '/'

/-- Whether a path ends in a slash. -/
def endsInSlash (path : String) : Bool :=
  path.toList.getLast? == some '/'

/-- A path below a directory. -/
def join (dir path : String) : String :=
  if isAbsolute path || dir == "" then path
  else if endsInSlash dir then dir ++ path
  else dir ++ "/" ++ path

/-- Drops the single points among names: they stay in the directory. One at the end stays, for what
it names has to be a directory. -/
def dropPoints : List String → List String
  | [] => []
  | [name] => [name]
  | name :: rest => if name = "." then dropPoints rest else name :: dropPoints rest

/-- The names on the way that a path describes. Empty names do not count. -/
def names (path : String) : List String :=
  dropPoints (((Text.pieces '/' path.toList).filter (· ≠ [])).map String.ofList)

/-- The greatest length of a path, in bytes. -/
def maxBytes : Nat := 4095

/-- The greatest length of a name, in bytes. -/
def maxNameBytes : Nat := 255

end Path

/-- Why an operation on files failed. -/
inductive FileFault where
  | notFound
  | alreadyExists
  | notADirectory
  | isADirectory
  /-- The contents of a file are not UTF-8. -/
  | notText
  /-- A path holds a character that no path may hold. -/
  | badPath
  /-- A component of a path is too long. -/
  | nameTooLong
deriving DecidableEq, Repr

/-- The wording of a fault. -/
def FileFault.message : FileFault → String
  | .notFound => "No such file or directory (os error 2)"
  | .alreadyExists => "File exists (os error 17)"
  | .notADirectory => "Not a directory (os error 20)"
  | .isADirectory => "Is a directory (os error 21)"
  | .notText => "stream did not contain valid UTF-8"
  | .badPath => "file name contained an unexpected NUL byte"
  | .nameTooLong => "File name too long (os error 36)"

end Bindery
