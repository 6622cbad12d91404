import Bindery.Api.Description
import Bindery.Json.Value

/-!
# Drafts

A draft is a document of the right shape whose contents were not looked at yet: names are texts,
values are JSON values, parameters still hold the one that stands for the result.

* `Draft`, `DraftModule`, `DraftEntry`, `DraftField`: the parts of a document.
-/

namespace Bindery

/-- A field or parameter as written. -/
structure DraftField where
  name : String
  typeId : String
  byRef : Bool
  byMut : Bool
  count : Option Count
deriving DecidableEq, Repr

/-- What an entry declares, as written. -/
inductive DraftShape where
  | typeAlias (target : String)
  | definition (value : Json.Value)
  | handle
  | enumeration (cases : Keyed Json.Value)
  | bitField (bits : Keyed Json.Value)
  | record (fields : List DraftField)
  | union (variants : List DraftField)
  | function (params : List DraftField) (deviceCommand : Bool)
  | callback (params : List DraftField)

/-- The kind of a shape. -/
def DraftShape.kind : DraftShape → Kind
  | .typeAlias _ => .typeAlias
  | .definition _ => .definition
  | .handle => .handle
  | .enumeration _ => .enumeration
  | .bitField _ => .bitField
  | .record _ => .record
  | .union _ => .union
  | .function _ _ => .function
  | .callback _ => .callback

/-- An entry as written. -/
inductive DraftEntry where
  | builtin (name : String)
  | declared (name : String) (isExtension : Bool) (shape : DraftShape)

/-- A module as written. -/
structure DraftModule where
  name : String
  builtIn : Bool
  requires : List String
  entries : List DraftEntry
  doc : Option ModuleDoc

/-- A document. -/
structure Draft where
  lead : Option String
  modules : List DraftModule

end Bindery
