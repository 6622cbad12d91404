/-!
# Kinds of entries

An entry of an interface has one of ten kinds. The tag of a kind stands in documents and in ids, its
title in headings.

* `Kind.tag`, `Kind.ofTag?`: the tag, and the kind of a tag.
* `Kind.title`: the title.
* `Kind.idOf`: the id of an entry of this kind.
-/

namespace Bindery

/-- The kind of an entry. -/
inductive Kind where
  | builtin
  | typeAlias
  | definition
  | handle
  | enumeration
  | bitField
  | record
  | union
  | function
  | callback
deriving DecidableEq, Repr

namespace Kind

/-- All kinds, in the order in which messages list them. -/
def all : List Kind :=
  [builtin, typeAlias, definition, handle, enumeration, bitField, record, union, function, callback]

/-- The word for a kind in documents and ids. -/
def tag : Kind → String
  | builtin => "builtin"
  | typeAlias => "alias"
  | definition => "definition"
  | handle => "handle"
  | enumeration => "enumeration"
  | bitField => "bit_field"
  | record => "structure"
  | union => "union"
  | function => "function"
  | callback => "callback"

/-- The word for a kind in headings. -/
def title : Kind → String
  | builtin => "BuiltInType"
  | typeAlias => "Alias"
  | definition => "Definition"
  | handle => "Handle"
  | enumeration => "Enumeration"
  | bitField => "BitField"
  | record => "Structure"
  | union => "Union"
  | function => "Function"
  | callback => "Callback"

/-- The kind with a given tag. -/
def ofTag? (t : String) : Option Kind :=
  all.find? (·.tag == t)

/-- The id of an entry of this kind: its tag, a point and its name as written. -/
def idOf (kind : Kind) (name : String) : String :=
  kind.tag ++ "." ++ name

theorem ofTag?_tag (kind : Kind) : ofTag? kind.tag = some kind := by
  cases kind <;> decide

theorem tag_injective {a b : Kind} (h : a.tag = b.tag) : a = b := by
  have := ofTag?_tag a
  rw [h, ofTag?_tag b] at this
  exact (Option.some.inj this).symm

end Kind

end Bindery
