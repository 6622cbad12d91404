import Bindery.Keyed
import Bindery.Json.Reader

/-!
# Decoders and records

What a tree holds, for an expected shape. A decoder is given the number of containers around its
tree and walks it in reading order, so the first fault of the text is the one it reports.

A record is written as an object with its members in any order, or as an array of its members in
the order of the record. Unknown members of an object are passed over; a member given twice is a
fault as soon as its second key is read.

* `Decoder.string`, `Decoder.list`, `Decoder.keyed`, …: decoders of simple shapes.
* `Member`, `Record`: the shape of a record, read into a value that is filled member by member.
* `Record.read`: the decoder of a record.
-/

namespace Bindery.Json

/-- A decoder, given the number of containers around a tree and the tree. -/
abbrev Decoder (α : Type) := Nat → Tree → Except Fault α

namespace Decoder

variable {α : Type}

/-- A string, under the name that messages give to what is expected. -/
def string (expected : Expected) : Decoder String
  | _, .string s => literal s
  | _, t => t.mismatch expected

/-- A truth value. -/
def boolean : Decoder Bool
  | _, .boolean b => .ok b
  | _, t => t.mismatch .boolean

/-- A value that may be null. -/
def nullable (d : Decoder α) : Decoder (Option α)
  | _, .null => .ok none
  | depth, t => (d depth t).map some

/-- All items of an array by one decoder. -/
def items (d : Tree → Except Fault α) : List Tree → Except Fault (List α)
  | [] => .ok []
  | t :: ts => do
    let a ← d t
    let rest ← items d ts
    return a :: rest

/-- An array of values. -/
def list (d : Decoder α) : Decoder (List α)
  | depth, .array ts stop => do
    Tree.enter depth
    let values ← items (d (depth + 1)) ts
    closed stop
    return values
  | _, t => t.mismatch .sequence

/-- The members of an object by one decoder of their values. -/
def entries (d : Tree → Except Fault α) :
    List (Except Break String × Tree) → Except Fault (List (String × α))
  | [] => .ok []
  | (key, t) :: rest => do
    let k ← literal key
    let a ← d t
    let more ← entries d rest
    return (k, a) :: more

/-- An object of values; of two values for one key the later holds, in the place of the first. -/
def keyed (d : Decoder α) : Decoder (Keyed α)
  | depth, .object ms stop => do
    Tree.enter depth
    let values ← entries (d (depth + 1)) ms
    closed stop
    return Keyed.ofList values
  | _, t => t.mismatch .map

/-- Null. -/
def nothing : Decoder Unit
  | _, .null => .ok ()
  | _, t => t.mismatch .nothing

end Decoder

/-- What becomes of elements behind the last member of a record that is written as an array. -/
inductive Surplus where
  /-- In a text they are not JSON: the array should have ended. -/
  | malformed
  /-- In the content of an entry, which was read before, they are counted. -/
  | counted
  /-- In a value that was read before, they are left over. -/
  | leftOver
deriving DecidableEq, Repr

/-- A member of a record that is read into an `R`. -/
structure Member (R : Type) where
  name : String
  /-- A record written as an array may not end before this member. -/
  required : Bool
  /-- Whether the member was read before. -/
  given : R → Bool
  read : Decoder (R → R)

/-- The shape of a record. -/
structure Record (R : Type) where
  title : String
  members : List (Member R)
  surplus : Surplus

/-- A member whose value goes into one slot. -/
def Member.slot {R α : Type} (name : String) (required : Bool) (get : R → Option α)
    (set : R → α → R) (d : Decoder α) : Member R where
  name := name
  required := required
  given := fun r => (get r).isSome
  read := fun depth t => (d depth t).map fun a r => set r a

namespace Record

variable {R : Type}

/-- Reads the members of an object. -/
def readObject (shape : Record R) (depth : Nat) :
    List (Except Break String × Tree) → R → Except Fault R
  | [], r => .ok r
  | (key, t) :: rest, r => do
    let k ← literal key
    match shape.members.find? (·.name == k) with
    | none =>
      t.skip
      readObject shape depth rest r
    | some m =>
      if m.given r then .error (.shape (.duplicateMember k))
      else
        let fill ← m.read depth t
        readObject shape depth rest (fill r)

/-- The fault of an array that ends before a required member. -/
def short (shape : Record R) (length : Nat) : Fault :=
  .shape (.tooShort length shape.title shape.members.length)

/-- The fault of an array with elements behind the last member. -/
def long (shape : Record R) (length : Nat) : Fault :=
  match shape.surplus with
  | .malformed => .broken .malformed
  | .counted => .shape (.tooLong length shape.members.length)
  | .leftOver => .shape (.leftOver length)

/-- Reads the elements of an array as the members from the `place`-th on. -/
def readArray (shape : Record R) (depth : Nat) (stop : Option Rupture) :
    Nat → List (Member R) → List Tree → R → Except Fault R
  | _, [], [], r => do
    closed stop
    return r
  | place, [], t :: ts, _ => .error (shape.long (place + (t :: ts).length))
  | place, m :: ms, [], r => do
    closed stop
    if m.required then .error (shape.short place)
    else readArray shape depth stop (place + 1) ms [] r
  | place, m :: ms, t :: ts, r => do
    let fill ← m.read depth t
    readArray shape depth stop (place + 1) ms ts (fill r)

/-- Reads a record into a value that nothing was read into. -/
def read (shape : Record R) (blank : R) : Decoder R
  | depth, .object ms stop => do
    Tree.enter depth
    let r ← shape.readObject (depth + 1) ms blank
    closed stop
    return r
  | depth, .array ts stop => do
    Tree.enter depth
    shape.readArray (depth + 1) stop 0 shape.members ts blank
  | _, t => t.mismatch (.record shape.title)

end Record

/-- A member that must have been given. -/
def need {α : Type} (name : String) : Option α → Except Fault α
  | some a => .ok a
  | none => .error (.shape (.missingMember name))

/-- One of several known tags. -/
def knownTag {α : Type} (known : List (String × α)) (tag : String) : Except Fault α :=
  match Keyed.get? known tag with
  | some a => .ok a
  | none => .error (.shape (.unknownTag tag (Keyed.keys known)))

end Bindery.Json
