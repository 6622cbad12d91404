import Bindery.Name

/-!
# Conventions of the bound interface

Decisions that no description states. Each table lists every known case.

* `fieldName`: the spelling of a field name that is a reserved word.
* `enumRepr`, `digitLetter?`: how particular enumerations are written.
* `isInfoType`: which records have a short name.
-/

namespace Bindery.Policy

/-- Field names that are reserved words. -/
def reservedFieldNames : List String := ["type", "i32", "f32"]

/-- Enumerations with signed values. -/
def signedEnums : List String := ["error"]

/-- Enumerations whose cases may begin with a digit, with the letter to put in front. -/
def digitLetters : List (String × String) := [("image_dimension", "D")]

/-- How the names of records end that have a short name. -/
def infoEnd : List Char := ['I', 'n', 'f', 'o']

/-- The word at the end of the type of a bit field. -/
def flagsWord : String := "flags"

/-- The word at the end of the name of a bit. -/
def bitWord : String := "bit"

/-- A field name, marked if it is a reserved word. -/
def fieldName (name : String) : String :=
  if name ∈ reservedFieldNames then "r#" ++ name else name

/-- The integer type that holds an enumeration. -/
def enumRepr (name : Name) : String :=
  if name.display ∈ signedEnums then "i32" else "u32"

/-- The letter in front of the cases of an enumeration that begin with a digit. -/
def digitLetter? (name : Name) : Option String :=
  (digitLetters.find? (·.1 == name.display)).map Prod.snd

/-- Whether a type name is that of a record with a short name. -/
def isInfoType (ident : String) : Bool :=
  infoEnd.isSuffixOf ident.toList

end Bindery.Policy
