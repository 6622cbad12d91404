import Bindery.Api.Entry
import Bindery.Binding.Error
import Bindery.Binding.Policy

/-!
# Identifiers

How names are spelled at the places where they are declared.

* `Name.typeIdent`, `Name.flagsIdent`, `Name.constIdent`, `Name.functionIdent`, `Name.bitIdent`: the
  spellings of one name.
* `caseIdent`: a case of an enumeration; a leading digit needs a letter in front.
* `Entry.declaredIdent`: the identifier that an entry is declared under.
* `Entry.shortIdent`: the same without the prefix, under which it is also available.
-/

namespace Bindery

namespace Name

/-- The spelling of a type. -/
def typeIdent (name : Name) : String := name.camel

/-- The spelling of the type of a bit field. -/
def flagsIdent (name : Name) : String := (name.extend Policy.flagsWord).camel

/-- The spelling of a constant. -/
def constIdent (name : Name) : String := name.screaming

/-- The spelling of a function. -/
def functionIdent (name : Name) : String := name.snake

/-- The spelling of a bit within its bit field. -/
def bitIdent (name : Name) : String := (name.extend Policy.bitWord).screaming

end Name

/-- Whether a text begins with a decimal digit. -/
def startsWithDigit (s : String) : Bool :=
  match s.toList with
  | [] => false
  | c :: _ => c.isDigit

/-- The spelling of a case of the enumeration with the given id and name. -/
def caseIdent (id : String) (enumeration case : Name) : Except BindingError String :=
  if startsWithDigit case.screaming then
    match Policy.digitLetter? enumeration with
    | some letter => .ok (letter ++ case.camel)
    | none => .error (.unsupportedCase id case.display)
  else .ok case.camel

/-- The identifier that a shape is declared under; callbacks are not declared. -/
def Shape.ident? (name : Name) : Shape → Option String
  | .definition _ => some name.constIdent
  | .function _ _ => some name.functionIdent
  | .bitField _ => some name.flagsIdent
  | .callback _ => none
  | _ => some name.typeIdent

namespace Entry

/-- The identifier of an entry, for a change of its name. -/
def identBy (f : Name → Name) (e : Entry) : Except BindingError String :=
  match e with
  | builtin id _ => .error (.noDeclaration id .builtin)
  | declared id name shape =>
    match shape.ident? (f name) with
    | some ident => .ok ident
    | none => .error (.noDeclaration id shape.kind)

/-- The identifier that an entry is declared under. -/
def declaredIdent (e : Entry) : Except BindingError String :=
  e.identBy fun name => name

/-- The identifier that an entry has without its prefix. -/
def shortIdent (e : Entry) : Except BindingError String :=
  e.identBy Name.withoutPrefix

end Entry

end Bindery
