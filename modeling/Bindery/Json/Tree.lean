import Bindery.Json.Value

/-!
# The tree of a JSON text

A tree holds everything that reading a text can find, faults included, so that reading the text and
deciding what it should hold are two steps. A fault stands in the tree where it stands in the text:
a reader that walks the tree from left to right meets the faults in reading order.

A value that nobody asks for is passed over, which asks less of it than reading it: numbers may be
out of range, surrogates may stand alone and values may be nested to any depth.

* `Tree.read`: the value of a tree, with every fault in it.
* `Tree.skip`: passing over a tree.
* `Tree.enter`: the bound on nesting.
-/

namespace Bindery.Json

/-- The end of a broken text, as it counts for each way of going through it. A choice is a string,
or an object with one key: nothing else may begin one, so there a value of another kind is
malformed even where the text ends inside it. -/
structure Rupture where
  /-- For reading any value. -/
  read : Break
  /-- For passing over. -/
  skip : Break
  /-- For reading a choice. -/
  choice : Break
deriving DecidableEq, Repr

/-- An end that counts the same in every way. -/
def Rupture.of (b : Break) : Rupture := ⟨b, b, b⟩

/-- What a text holds. A literal that cannot be read, though it can be passed over, is an error;
a container that is not closed has a rupture at its end. -/
inductive Tree where
  | null
  | boolean (b : Bool)
  | number (n : Except Break Number)
  | string (s : Except Break String)
  | array (items : List Tree) (stop : Option Rupture)
  | object (members : List (Except Break String × Tree)) (stop : Option Rupture)
  | broken (r : Rupture)

/-- The greatest number of containers around a value. -/
def maxDepth : Nat := 127

/-- The text of a literal, or its fault. -/
def literal {α : Type} : Except Break α → Except Fault α
  | .ok a => .ok a
  | .error b => .error (.broken b)

/-- A container must be closed. -/
def closed : Option Rupture → Except Fault Unit
  | none => .ok ()
  | some r => .error (.broken r.read)

namespace Tree

/-- A container may be entered if there are not too many around it. -/
def enter (depth : Nat) : Except Fault Unit :=
  if depth < maxDepth then .ok () else .error (.broken .malformed)

mutual

/-- The value of a tree that has `depth` containers around it. -/
def read (depth : Nat) : Tree → Except Fault Value
  | .null => .ok .null
  | .boolean b => .ok (.boolean b)
  | .number n => (literal n).map .number
  | .string s => (literal s).map .string
  | .array items stop => do
    enter depth
    let values ← readItems (depth + 1) items
    closed stop
    return .array values
  | .object members stop => do
    enter depth
    let values ← readMembers (depth + 1) members
    closed stop
    return .object values
  | .broken r => .error (.broken r.read)

/-- The values of trees. -/
def readItems (depth : Nat) : List Tree → Except Fault (List Value)
  | [] => .ok []
  | t :: ts => do
    let v ← read depth t
    let vs ← readItems depth ts
    return v :: vs

/-- The values of members. -/
def readMembers (depth : Nat) :
    List (Except Break String × Tree) → Except Fault (List (String × Value))
  | [] => .ok []
  | (key, t) :: rest => do
    let k ← literal key
    let v ← read depth t
    let vs ← readMembers depth rest
    return (k, v) :: vs

end

/-- An unclosed container cannot be passed over. -/
def skipStop : Option Rupture → Except Fault Unit
  | none => .ok ()
  | some r => .error (.broken r.skip)

mutual

/-- Passes over a tree. -/
def skip : Tree → Except Fault Unit
  | .array items stop => do
    skipItems items
    skipStop stop
  | .object members stop => do
    skipMembers members
    skipStop stop
  | .broken r => .error (.broken r.skip)
  | _ => .ok ()

/-- Passes over trees. -/
def skipItems : List Tree → Except Fault Unit
  | [] => .ok ()
  | t :: ts => do
    skip t
    skipItems ts

/-- Passes over members. -/
def skipMembers : List (Except Break String × Tree) → Except Fault Unit
  | [] => .ok ()
  | (_, t) :: rest => do
    skip t
    skipMembers rest

end

/-- What a tree holds, where something else was expected. The inside of a container is not looked
at. -/
def found : Tree → Except Fault Found
  | .null => .ok .null
  | .boolean b => .ok (.boolean b)
  | .number n => (literal n).map .number
  | .string s => (literal s).map .string
  | .array _ _ => .ok .sequence
  | .object _ _ => .ok .map
  | .broken r => .error (.broken r.read)

/-- The fault of a tree that does not hold what was expected. -/
def mismatch {α : Type} (t : Tree) (expected : Expected) : Except Fault α := do
  let f ← t.found
  .error (.wrongType f expected)

end Tree

end Bindery.Json
