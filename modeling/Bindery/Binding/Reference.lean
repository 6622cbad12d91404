import Bindery.Api.Registry
import Bindery.Binding.Ident
import Bindery.Binding.Marker
import Bindery.Text.Lowercase
import Bindery.Text.Pieces

/-!
# References in documentation

A symbol names an entry by its id, or a member of an entry by id, point and member. Documentation
shows it as the identifier that the entry or member is declared under; an entry is linked to its
heading.

* `Entry.heading`, `anchor`: the heading of an entry and the link to it.
* `Entry.memberIdent?`: how a member is shown.
* `Reference`, `Registry.lookUp`: what a symbol leads to.
* `Registry.resolveLine`, `Registry.strayMarkers`: a line with its references resolved, and the
  symbols in it that lead nowhere.
-/

namespace Bindery

/-- The end of the heading of a function that is recorded into a command list. -/
def deviceCommandMark : String := " (Device Command)"

namespace Entry

/-- Whether an entry is a function that is recorded into a command list. -/
def isDeviceCommand : Entry → Bool
  | declared _ _ (.function _ deviceCommand) => deviceCommand
  | _ => false

/-- The heading of an entry: its kind and its identifier. -/
def heading (e : Entry) : Except BindingError String :=
  e.declaredIdent.map fun ident =>
    e.kind.title ++ " `" ++ ident ++ "`" ++ if e.isDeviceCommand then deviceCommandMark else ""

/-- How a member of an entry is shown, if the entry has it and it has a spelling. -/
def memberIdent? (e : Entry) (member : String) : Option String :=
  match e with
  | builtin _ _ => none
  | declared id name shape =>
    match shape with
    | .enumeration cases =>
      match findCase? cases member with
      | some c =>
        match caseIdent id name c.name with
        | .ok ident => some (name.typeIdent ++ "::" ++ ident)
        | .error _ => none
      | none => none
    | .bitField bits =>
      (findFlag? bits member).map fun b => name.flagsIdent ++ "::" ++ b.name.bitIdent
    | shape => (shape.fields.map (·.name.display)).find? (· == member)

end Entry

/-- The link to a heading: lower case with hyphens for spaces, without backticks and parentheses. -/
def anchor (heading : String) : String :=
  let letters := (Text.lowercase heading.toList).map fun c => if c = ' ' then '-' else c
  String.ofList ('#' :: letters.filter fun c => c ≠ Text.tick ∧ c ≠ '(' ∧ c ≠ ')')

/-- What a symbol leads to. -/
inductive Reference where
  /-- An entry with its identifier, and the link to its heading. -/
  | entry (ident : String) (link : String)
  /-- A member of an entry. -/
  | member (ident : String)
  /-- Nothing: the symbol is shown as it is. -/
  | stray (symbol : String)
deriving DecidableEq, Repr

namespace Reference

/-- What is shown for a reference. -/
def name : Reference → String
  | entry ident _ => ident
  | member ident => ident
  | stray symbol => symbol

/-- The link of a reference. -/
def link? : Reference → Option String
  | entry _ link => some link
  | _ => none

/-- Whether a symbol leads nowhere. -/
def isStray : Reference → Bool
  | stray _ => true
  | _ => false

/-- A reference in a documentation text. -/
def markdown (r : Reference) : String :=
  match r.link? with
  | some link => "[`" ++ r.name ++ "`](" ++ link ++ ")"
  | none => "`" ++ r.name ++ "`"

end Reference

/-- The parts of a symbol: the id of an entry, up to the second point, and the member behind it. A
symbol without a point has no id. -/
def symbolParts (symbol : List Char) : Option (List Char × Option (List Char)) :=
  match Text.pieces '.' symbol with
  | tag :: name :: [] => some (tag ++ '.' :: name, none)
  | tag :: name :: rest => some (tag ++ '.' :: name, some (Text.joined ['.'] rest))
  | _ => none

/-- What an entry is shown as, as a whole or by one of its members. -/
def Entry.reference? (e : Entry) : Option String → Option Reference
  | some member => (e.memberIdent? member).map .member
  | none =>
    match e.declaredIdent, e.heading with
    | .ok ident, .ok heading => some (.entry ident (anchor heading))
    | _, _ => none

namespace Registry

/-- What a symbol leads to. -/
def lookUp (r : Registry) (symbol : String) : Reference :=
  let found : Option Reference := do
    let (id, member) ← symbolParts symbol.toList
    let e ← r.find? (String.ofList id)
    e.reference? (member.map String.ofList)
  found.getD (.stray symbol)

/-- A line of documentation with its references resolved. -/
def resolveLine (r : Registry) (line : String) : String :=
  String.ofList
    (Text.resolveMarkers (fun s => (r.lookUp (String.ofList s)).markdown.toList) line.toList)

/-- The symbols of a line that lead nowhere, each once. -/
def strayMarkers (r : Registry) (line : String) : List String :=
  ((Text.symbolsOf line.toList).map String.ofList).filter fun s => (r.lookUp s).isStray

end Registry

end Bindery
