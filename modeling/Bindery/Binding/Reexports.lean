import Bindery.Keyed

/-!
# Short names

The short names under which declarations of a module are also available. A short name keeps the
place of its first registration and leads to the target of its last.

* `Reexports.register`: adds a short name.
* `Reexports.lines`: the module that re-exports the targets, line by line.
-/

namespace Bindery

/-- A short name and the identifier it stands for. -/
structure Reexport where
  key : String
  target : String
deriving DecidableEq, Repr

/-- The line that makes a target available under a short name. -/
def Reexport.line (e : Reexport) : String :=
  "pub use super::" ++ e.target ++ " as " ++ e.key ++ ";"

/-- Different short names, each with its target. -/
structure Reexports where
  targets : Keyed String
  distinct : (Keyed.keys targets).Nodup
deriving DecidableEq, Repr

namespace Reexports

/-- No short names. -/
def empty : Reexports := ⟨[], List.nodup_nil⟩

/-- Registers a target under a short name. -/
def register (t : Reexports) (e : Reexport) : Reexports :=
  ⟨Keyed.put t.targets e.key e.target, Keyed.nodup_keys_put t.distinct e.key e.target⟩

/-- Registers targets one after the other. -/
def registerAll (t : Reexports) (es : List Reexport) : Reexports :=
  es.foldl register t

/-- The target of a short name. -/
def get? (t : Reexports) (key : String) : Option String :=
  Keyed.get? t.targets key

/-- Whether a short name is taken. -/
def containsKey (t : Reexports) (key : String) : Bool :=
  (t.get? key).isSome

/-- Whether something is available under a short name. -/
def containsTarget (t : Reexports) (target : String) : Bool :=
  t.targets.any (·.2 == target)

/-- The short names in order, each with its target. -/
def toList (t : Reexports) : List Reexport :=
  t.targets.map fun p => ⟨p.1, p.2⟩

/-- The number of short names. -/
def size (t : Reexports) : Nat :=
  t.targets.length

/-- Whether there are no short names. -/
def isEmpty (t : Reexports) : Bool :=
  t.size == 0

/-- The module with the short names, line by line. -/
def lines (t : Reexports) : List String :=
  ["pub mod aliases \x7b"] ++ t.toList.map Reexport.line ++ ["\x7d"]

end Reexports

end Bindery
