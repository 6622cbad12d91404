import Bindery.Api.BuiltinTable
import Bindery.Api.Validation
import Bindery.Document.Decode

/-!
# Loading a document

From a draft to a valid interface. Declarations are taken in the order of the document, and the
first that cannot be taken is the error; what is wrong between entries is found afterwards.

* `DraftEntry.toEntry`: one entry, with its texts made into names and its values checked.
* `Draft.toApi`: all entries in a registry, on top of the built-in types.
* `Api.ofText`: the interface that a text describes.
-/

namespace Bindery

/-- The name of the parameter that stands for the result. -/
def resultName : String := "@return"

/-- The word at the end of the names of extensions. -/
def extensionWord : String := "ext"

/-- The name of an entry. -/
def entryName (lead : Option String) (name : String) (isExtension : Bool) : Name :=
  let base :=
    match lead with
    | some p => Name.withPrefix p name
    | none => Name.new name
  if isExtension then base.extend extensionWord else base

/-- A field with its name taken apart. -/
def DraftField.toField (f : DraftField) : Field :=
  ⟨Name.new f.name, f.typeId, f.byRef, f.byMut, f.count⟩

/-- Parameters and result of a list of parameters. The last one that stands for the result is the
one that counts. -/
def Signature.ofParams (params : List DraftField) : Signature :=
  ⟨(params.filter (·.name ≠ resultName)).map DraftField.toField,
    ((params.filter (·.name = resultName)).getLast?).map DraftField.typeId⟩

/-- The value of a definition: a number, or a text that is not empty. -/
def definitionText (id : String) : Json.Value → Except LoadError String
  | .number n => .ok n.text
  | .string s => if s = "" then .error (.invalidValue id .definition) else .ok s
  | _ => .error (.invalidValue id .definition)

/-- The largest value of a case. -/
def maxCaseValue : Int := 0x7FFFFFFFFFFFFFFF

/-- The largest index that is read for a bit. -/
def maxIndexValue : Int := 0xFFFFFFFF

/-- The value of a case: a signed integer of 64 bits. -/
def Case.ofMember (id : String) (name : String) : Json.Value → Except LoadError Case
  | .number (.integer n) =>
    if n ≤ maxCaseValue then .ok ⟨Name.new name, n⟩ else .error (.invalidValue id (.case name))
  | _ => .error (.invalidValue id (.case name))

/-- The index of a bit: an unsigned integer of 32 bits. -/
def Flag.ofMember (id : String) (name : String) : Json.Value → Except LoadError Flag
  | .number (.integer n) =>
    if 0 ≤ n ∧ n ≤ maxIndexValue then .ok ⟨Name.new name, n.toNat⟩
    else .error (.invalidValue id (.bit name))
  | _ => .error (.invalidValue id (.bit name))

/-- Members of an object one by one, up to the first that fails. -/
def eachMember {α : Type} (f : String → Json.Value → Except LoadError α) :
    Keyed Json.Value → Except LoadError (List α)
  | [] => .ok []
  | (name, value) :: rest => do
    let a ← f name value
    let more ← eachMember f rest
    return a :: more

/-- What an entry with a given id declares. -/
def DraftShape.toShape (id : String) : DraftShape → Except LoadError Shape
  | .typeAlias target => .ok (.typeAlias target)
  | .definition value => (definitionText id value).map .definition
  | .handle => .ok .handle
  | .enumeration cases => (eachMember (Case.ofMember id) cases).map .enumeration
  | .bitField bits => (eachMember (Flag.ofMember id) bits).map .bitField
  | .record fields => .ok (.record (fields.map DraftField.toField))
  | .union variants => .ok (.union (variants.map DraftField.toField))
  | .function params deviceCommand => .ok (.function (Signature.ofParams params) deviceCommand)
  | .callback params => .ok (.callback (Signature.ofParams params))

/-- An entry that is declared under a name. -/
def declaredEntry (lead : Option String) (name : String) (isExtension : Bool)
    (shape : DraftShape) : Except LoadError Entry := do
  let id := shape.kind.idOf name
  let shape ← shape.toShape id
  return .declared id (entryName lead name isExtension) shape

/-- Takes one declaration: the registry with it, and its id. -/
def declare (table : BuiltinTable) (lead : Option String) (r : Registry) :
    DraftEntry → Except LoadError (Registry × String)
  | .builtin name =>
    match table.get? name with
    | some _ => .ok (r, name)
    | none => .error (.unknownBuiltin name)
  | .declared name isExtension shape => do
    let e ← declaredEntry lead name isExtension shape
    match r.insert e with
    | some r => .ok (r, e.id)
    | none => .error (.duplicateEntry e.id)

/-- Takes declarations one after the other. -/
def declareAll (table : BuiltinTable) (lead : Option String) :
    Registry → List DraftEntry → Except LoadError (Registry × List String)
  | r, [] => .ok (r, [])
  | r, d :: ds => do
    let (r, id) ← declare table lead r d
    let (r, ids) ← declareAll table lead r ds
    return (r, id :: ids)

/-- Takes the declarations of modules one after the other. -/
def declareModules (table : BuiltinTable) (lead : Option String) :
    Registry → List DraftModule → Except LoadError (Registry × List Module)
  | r, [] => .ok (r, [])
  | r, m :: ms => do
    let (r, ids) ← declareAll table lead r m.entries
    let (r, modules) ← declareModules table lead r ms
    return (r, ⟨m.name, m.builtIn, m.requires, ids, m.doc⟩ :: modules)

/-- Adds entries one after the other. -/
def insertAll : Registry → List Entry → Except LoadError Registry
  | r, [] => .ok r
  | r, e :: es =>
    match r.insert e with
    | some r => insertAll r es
    | none => .error (.duplicateEntry e.id)

/-- The interface of a draft, not validated. An empty prefix is none. -/
def Draft.toApi (table : BuiltinTable) (d : Draft) : Except LoadError Api := do
  let lead := d.lead.filter (· ≠ "")
  let r ← insertAll .empty table.entries
  let (r, modules) ← declareModules table lead r d.modules
  return ⟨lead, r, modules⟩

/-- The interface that a draft describes. -/
def Api.ofDraft (table : BuiltinTable) (d : Draft) : Except LoadError Api := do
  let api ← d.toApi table
  api.validate
  return api

/-- The interface that a text describes. -/
def Api.ofText (table : BuiltinTable) (text : String) : Except LoadError Api :=
  match Draft.ofText text with
  | .ok d => Api.ofDraft table d
  | .error fault => .error (.json fault)

end Bindery
