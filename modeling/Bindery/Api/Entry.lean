import Bindery.Api.Kind
import Bindery.Name

/-!
# Entries

An entry is a thing that an interface declares, or a type that every interface may use. Built-in
types have only an id and a spelling; every other entry has a name and a shape.

* `Field`: a member of a record or a parameter of a function, with its qualifiers.
* `Shape`: what is declared under a name.
* `Entry`: an entry with its id; `Entry.kind`, `Entry.name?`, `Entry.fields` read it.
-/

namespace Bindery

/-- How many elements a field has. -/
inductive Count where
  /-- An array of this many elements. -/
  | fixed (n : Nat)
  /-- As many as the named field of the same list says. -/
  | sibling (name : String)
deriving DecidableEq, Repr

/-- A member of a record, or a parameter. -/
structure Field where
  name : Name
  typeId : String
  byRef : Bool
  byMut : Bool
  count : Option Count
deriving DecidableEq, Repr

namespace Field

/-- A field whose length another field carries. -/
def isDynamic (f : Field) : Bool :=
  match f.count with
  | some (.sibling _) => true
  | _ => false

/-- A field that is a pointer: by reference of either kind, or of dynamic length. -/
def isPointer (f : Field) : Bool :=
  f.byRef || f.byMut || f.isDynamic

/-- The number of elements of an array. -/
def fixedCount (f : Field) : Option Nat :=
  match f.count with
  | some (.fixed n) => some n
  | _ => none

end Field

/-- A case of an enumeration. -/
structure Case where
  name : Name
  value : Int
deriving DecidableEq, Repr

/-- A bit of a bit field. -/
structure Flag where
  name : Name
  index : Nat
deriving DecidableEq, Repr

/-- Parameters and result of something that can be called. -/
structure Signature where
  params : List Field
  result : Option String
deriving DecidableEq, Repr

/-- What an entry declares under its name. -/
inductive Shape where
  | typeAlias (target : String)
  | definition (value : String)
  | handle
  | enumeration (cases : List Case)
  | bitField (bits : List Flag)
  | record (fields : List Field)
  | union (variants : List Field)
  | function (signature : Signature) (deviceCommand : Bool)
  | callback (signature : Signature)
deriving DecidableEq, Repr

/-- The kind of a shape. -/
def Shape.kind : Shape → Kind
  | .typeAlias _ => .typeAlias
  | .definition _ => .definition
  | .handle => .handle
  | .enumeration _ => .enumeration
  | .bitField _ => .bitField
  | .record _ => .record
  | .union _ => .union
  | .function _ _ => .function
  | .callback _ => .callback

/-- The fields or parameters of a shape. -/
def Shape.fields : Shape → List Field
  | .record fields => fields
  | .union variants => variants
  | .function signature _ => signature.params
  | .callback signature => signature.params
  | _ => []

/-- An entry of an interface. -/
inductive Entry where
  /-- A built-in type: its id is its C spelling. -/
  | builtin (id : String) (spelling : String)
  | declared (id : String) (name : Name) (shape : Shape)
deriving DecidableEq, Repr

namespace Entry

/-- The id of an entry. -/
def id : Entry → String
  | builtin id _ => id
  | declared id _ _ => id

/-- The kind of an entry. -/
def kind : Entry → Kind
  | builtin _ _ => .builtin
  | declared _ _ shape => shape.kind

/-- The name of an entry; built-in types have none. -/
def name? : Entry → Option Name
  | builtin _ _ => none
  | declared _ name _ => some name

/-- The fields or parameters of an entry. -/
def fields : Entry → List Field
  | builtin _ _ => []
  | declared _ _ shape => shape.fields

/-- Whether an entry is a handle. -/
def isHandle (e : Entry) : Bool :=
  e.kind == .handle

end Entry

/-- The first case that is displayed under a name. -/
def findCase? (cases : List Case) (name : String) : Option Case :=
  cases.find? (·.name.display == name)

/-- The first bit that is displayed under a name. -/
def findFlag? (bits : List Flag) (name : String) : Option Flag :=
  bits.find? (·.name.display == name)

end Bindery
