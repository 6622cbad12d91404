import Bindery.Number.Shortest
import Bindery.Text.Quoted

/-!
# JSON values

A value as the text gives it, and what can be wrong with a text that should hold a value of a given
shape. Objects keep the order of their members and every repetition. A text is broken if it ends too
early or is no JSON; otherwise its value may have the wrong shape, and each way in which it can is a
constructor of `ShapeFault`.

* `Number`: integers of 64 bits, signed or not, are exact; all other numbers are doubles.
* `Number.text`: a number as it is written out again.
* `Value`: the values.
* `Fault.category`: one word for the kind of fault.
* `ShapeFault.message`: the wording.
-/

namespace Bindery.Json

open Bindery.Number Bindery.Text

/-- A number of a JSON text. -/
inductive Number where
  | integer (n : Int)
  | float (x : Binary64)
deriving DecidableEq, Repr

/-- An integer in decimal, a double with its shortest digits. -/
def Number.text : Number → String
  | .integer n => toString n
  | .float x => x.text

/-- A JSON value. -/
inductive Value where
  | null
  | boolean (b : Bool)
  | number (n : Number)
  | string (s : String)
  | array (items : List Value)
  | object (members : List (String × Value))

/-- Why a text holds no value at all. -/
inductive Break where
  /-- The text ends inside the value. -/
  | ended
  /-- The text is not JSON at this point. -/
  | malformed
deriving DecidableEq, Repr

/-- What a text holds in the place of something else. -/
inductive Found where
  | null
  | boolean (b : Bool)
  | number (n : Number)
  | string (s : String)
  | sequence
  | map
deriving DecidableEq, Repr

/-- What a place of the text has to hold. -/
inductive Expected where
  | string
  | path
  | boolean
  | sequence
  | map
  | nothing
  | tag
  | choice
  /-- A record, under the name that messages give it. -/
  | record (title : String)
deriving DecidableEq, Repr

/-- How a value can fail to have the expected shape. -/
inductive ShapeFault where
  | wrongType (found : Found) (expected : Expected)
  | duplicateMember (name : String)
  | missingMember (name : String)
  /-- A tag that is none of the known ones. -/
  | unknownTag (tag : String) (known : List String)
  /-- An array with too few elements for a record of `members` members. -/
  | tooShort (length : Nat) (title : String) (members : Nat)
  /-- An array with more elements than a record has members. -/
  | tooLong (length : Nat) (members : Nat)
  /-- The same, in a value that was read before. -/
  | leftOver (length : Nat)
  /-- A count that is neither a number of elements nor the name of a field. -/
  | noCount
  /-- A choice that is not a single member. -/
  | notSingle
deriving DecidableEq, Repr

/-- What is wrong with a text. -/
inductive Fault where
  | broken (b : Break)
  | shape (f : ShapeFault)
deriving DecidableEq, Repr

/-- The kind of fault in one word. -/
def Fault.category : Fault → String
  | .broken .ended => "eof"
  | .broken .malformed => "syntax"
  | .shape _ => "data"

/-- How a message names what it found. -/
def Found.text : Found → String
  | .null => "null"
  | .boolean b => "boolean `" ++ toString b ++ "`"
  | .number (.integer n) => "integer `" ++ toString n ++ "`"
  | .number (.float x) => "floating point `" ++ x.text ++ "`"
  | .string s => "string " ++ quoted s
  | .sequence => "sequence"
  | .map => "map"

/-- How a message names what it expected. -/
def Expected.text : Expected → String
  | .string => "a string"
  | .path => "path string"
  | .boolean => "a boolean"
  | .sequence => "a sequence"
  | .map => "a map"
  | .nothing => "unit"
  | .tag => "variant identifier"
  | .choice => "string or map"
  | .record title => title

/-- A number of elements in words. -/
def elements (n : Nat) : String :=
  if n = 1 then "1 element" else toString n ++ " elements"

/-- A word between backticks. -/
def ticked (s : String) : String :=
  "`" ++ s ++ "`"

/-- The known tags, as a message lists them. -/
def alternatives : List String → String
  | [] => "there are no variants"
  | [a] => "expected " ++ ticked a
  | [a, b] => "expected " ++ ticked a ++ " or " ++ ticked b
  | tags => "expected one of " ++ ", ".intercalate (tags.map ticked)

/-- The wording of a shape fault. -/
def ShapeFault.message : ShapeFault → String
  | .wrongType found expected =>
    "invalid type: " ++ found.text ++ ", expected " ++ expected.text
  | .duplicateMember name => "duplicate field " ++ ticked name
  | .missingMember name => "missing field " ++ ticked name
  | .unknownTag tag known => "unknown variant " ++ ticked tag ++ ", " ++ alternatives known
  | .tooShort length title members =>
    "invalid length " ++ toString length ++ ", expected " ++ title ++ " with " ++ elements members
  | .tooLong length members =>
    "invalid length " ++ toString length ++ ", expected " ++ elements members ++ " in sequence"
  | .leftOver length =>
    "invalid length " ++ toString length ++ ", expected fewer elements in array"
  | .noCount => "data did not match any variant of untagged enum RawCount"
  | .notSingle => "invalid value: map, expected map with a single key"

/-- The wording of a fault; a broken text has none beyond its category. -/
def Fault.message? : Fault → Option String
  | .broken _ => none
  | .shape f => some f.message

/-- A value that has not the expected type. -/
def Fault.wrongType (found : Found) (expected : Expected) : Fault :=
  .shape (.wrongType found expected)

end Bindery.Json
