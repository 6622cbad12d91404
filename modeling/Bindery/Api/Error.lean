import Bindery.Files.Path
import Bindery.Json.Value

/-!
# Why a description is refused

The causes for which no interface can be had from a document, and their wording.

* `ValueFault`: a value that an entry cannot have.
* `Flaw`: a contradiction within one entry.
* `LoadError`: every cause; `LoadError.message` words it.
-/

namespace Bindery

/-- A value of a document that an entry cannot have. -/
inductive ValueFault where
  /-- The value of a definition is neither a number nor a text. -/
  | definition
  | case (name : String)
  | bit (name : String)
deriving DecidableEq, Repr

/-- The wording of a value fault. -/
def ValueFault.message : ValueFault → String
  | .definition => "definition value must be a number or string"
  | .case name => "case '" ++ name ++ "' is not an integer"
  | .bit name => "bit '" ++ name ++ "' has no valid index"

/-- The highest index that a bit may have. -/
def maxBitIndex : Nat := 31

/-- A contradiction within the entry with a given id. -/
inductive Flaw where
  | repeatedCase (name : String) (id : String)
  | bitTooHigh (index : Nat) (id : String)
  | repeatedBit (index : Nat) (id : String)
  /-- The count of a field names no field beside it. -/
  | strayCount (count : String) (field : String) (id : String)
deriving DecidableEq, Repr

/-- The wording of a flaw. -/
def Flaw.message : Flaw → String
  | .repeatedCase name id => "Duplicate case name '" ++ name ++ "' in enumeration '" ++ id ++ "'"
  | .bitTooHigh index id =>
    "Bit index " ++ toString index ++ " exceeds maximum " ++ toString maxBitIndex ++ " in '" ++ id
      ++ "'"
  | .repeatedBit index id => "Duplicate bit index " ++ toString index ++ " in '" ++ id ++ "'"
  | .strayCount count field id =>
    "count '" ++ count ++ "' of field '" ++ field ++ "' in '" ++ id ++ "' is not a sibling field"

/-- Why no interface can be had from a document. -/
inductive LoadError where
  | json (fault : Json.Fault)
  | file (fault : FileFault)
  | duplicateEntry (id : String)
  /-- Something refers to an id that no entry has. -/
  | unresolved (owner : String) (reference : String)
  | unknownBuiltin (name : String)
  | invalidValue (id : String) (fault : ValueFault)
  | invalid (flaw : Flaw)
deriving DecidableEq, Repr

/-- The wording of a load error. A broken text is named by its category. -/
def LoadError.message : LoadError → String
  | .json fault => "JSON error: " ++ fault.message?.getD fault.category
  | .file fault => "IO error: " ++ fault.message
  | .duplicateEntry id => "duplicate entry id '" ++ id ++ "'"
  | .unresolved owner reference =>
    "unresolved reference '" ++ reference ++ "' in '" ++ owner ++ "'"
  | .unknownBuiltin name => "built-in type '" ++ name ++ "' has no native spelling"
  | .invalidValue id fault => "invalid value in '" ++ id ++ "': " ++ fault.message
  | .invalid flaw => "validation error: " ++ flaw.message

end Bindery
