import Bindery.Document.Draft
import Bindery.Json.Record

/-!
# The shape of a document

Decoders for the parts of a document. The root, its modules and their documentation are read as they
come. An entry is first read whole, except that its tag is decoded when it is met; then its other
members are read in their order.

* `Draft.ofText`: the draft in a text.
* `Draft.decodeEntry`: one entry, `Draft.variant` the record behind each tag.
* `Draft.decodeDoc`: documentation of a module, in a text or in a value that was read before.
-/

namespace Bindery.Draft

open Json

/-- Documentation of a module while it is read. -/
structure DocParts where
  lines : Option (List String)
  entries : Option (Keyed (List String))
  members : Option (Keyed String)

/-- The shape of a module's documentation. -/
def docRecord (surplus : Surplus) : Record DocParts where
  title := "struct ModuleDoc"
  surplus := surplus
  members :=
    [.slot "module_doc" false (·.lines) (fun r a => { r with lines := some a })
        (.list (.string .string)),
      .slot "api_refs" false (·.entries) (fun r a => { r with entries := some a })
        (.keyed (.list (.string .string))),
      .slot "api_field_refs" false (·.members) (fun r a => { r with members := some a })
        (.keyed (.string .string))]

/-- The documentation of a module. -/
def decodeDoc (surplus : Surplus) : Decoder ModuleDoc := fun depth t => do
  let r ← (docRecord surplus).read ⟨none, none, none⟩ depth t
  return ⟨r.lines.getD [], r.entries.getD [], r.members.getD []⟩

/-- The highest count that a field can have. -/
def maxCount : Int := 0xFFFFFFFF

/-- A count: a number of elements, or the name of a field. -/
def decodeCount : Decoder Count
  | depth, t => do
    match ← t.read depth with
    | .number (.integer n) =>
      if 0 ≤ n ∧ n ≤ maxCount then return .fixed n.toNat else .error (.shape .noCount)
    | .string s => return .sibling s
    | _ => .error (.shape .noCount)

/-- A field while it is read. -/
structure FieldParts where
  name : Option String
  typeId : Option String
  byRef : Option Bool
  byMut : Option Bool
  count : Option (Option Count)

/-- The shape of a field. -/
def fieldRecord : Record FieldParts where
  title := "struct RawField"
  surplus := .counted
  members :=
    [.slot "name" true (·.name) (fun r a => { r with name := some a }) (.string .string),
      .slot "type" true (·.typeId) (fun r a => { r with typeId := some a }) (.string .string),
      .slot "by_ref" false (·.byRef) (fun r a => { r with byRef := some a }) .boolean,
      .slot "by_mut" false (·.byMut) (fun r a => { r with byMut := some a }) .boolean,
      .slot "count" false (·.count) (fun r a => { r with count := some a })
        (.nullable decodeCount)]

/-- A field or parameter. -/
def decodeField : Decoder DraftField := fun depth t => do
  let r ← fieldRecord.read ⟨none, none, none, none, none⟩ depth t
  let name ← need "name" r.name
  let typeId ← need "type" r.typeId
  return ⟨name, typeId, r.byRef.getD false, r.byMut.getD false, r.count.getD none⟩

/-- An entry of any kind while it is read. -/
structure EntryParts where
  name : Option String
  target : Option String
  value : Option Value
  cases : Option (Keyed Value)
  bits : Option (Keyed Value)
  fields : Option (List DraftField)
  deviceCommand : Option Bool
  isExtension : Option Bool

/-- An entry of which nothing was read. -/
def EntryParts.blank : EntryParts :=
  ⟨none, none, none, none, none, none, none, none⟩

/-- The member that names an entry. -/
def nameMember : Member EntryParts :=
  .slot "name" true (·.name) (fun r a => { r with name := some a }) (.string .string)

/-- The member that marks an entry of an extension. -/
def extensionMember : Member EntryParts :=
  .slot "is_extension" false (·.isExtension) (fun r a => { r with isExtension := some a }) .boolean

/-- The member with the fields of an entry, under the name that its kind gives it. -/
def fieldsMember (name : String) : Member EntryParts :=
  .slot name false (·.fields) (fun r a => { r with fields := some a }) (.list decodeField)

/-- The members of an entry of each kind, its tag apart. -/
def variantMembers : Kind → List (Member EntryParts)
  | .builtin => [nameMember]
  | .typeAlias =>
    [nameMember,
      .slot "alias_of" true (·.target) (fun r a => { r with target := some a }) (.string .string),
      extensionMember]
  | .definition =>
    [nameMember,
      .slot "value" true (·.value) (fun r a => { r with value := some a }) Tree.read,
      extensionMember]
  | .handle => [nameMember, extensionMember]
  | .enumeration =>
    [nameMember,
      .slot "cases" true (·.cases) (fun r a => { r with cases := some a }) (.keyed Tree.read),
      extensionMember]
  | .bitField =>
    [nameMember,
      .slot "bits" true (·.bits) (fun r a => { r with bits := some a }) (.keyed Tree.read),
      extensionMember]
  | .record => [nameMember, fieldsMember "fields", extensionMember]
  | .union => [nameMember, fieldsMember "variants", extensionMember]
  | .function =>
    [nameMember, fieldsMember "parameters",
      .slot "is_device_command" false (·.deviceCommand)
        (fun r a => { r with deviceCommand := some a }) .boolean,
      extensionMember]
  | .callback => [nameMember, fieldsMember "parameters", extensionMember]

/-- How messages name an entry of a kind. -/
def variantTitle : Kind → String
  | .builtin => "struct variant RawEntry::Builtin"
  | kind => "struct variant RawEntry::" ++ kind.title

/-- The shape of an entry of a kind. -/
def variant (kind : Kind) : Record EntryParts where
  title := variantTitle kind
  surplus := .counted
  members := variantMembers kind

/-- What an entry of a kind declares. -/
def shapeOf (r : EntryParts) : Kind → Except Fault DraftShape
  | .builtin => .error (.shape (.missingMember "name"))
  | .typeAlias => (need "alias_of" r.target).map .typeAlias
  | .definition => (need "value" r.value).map .definition
  | .handle => .ok .handle
  | .enumeration => (need "cases" r.cases).map .enumeration
  | .bitField => (need "bits" r.bits).map .bitField
  | .record => .ok (.record (r.fields.getD []))
  | .union => .ok (.union (r.fields.getD []))
  | .function => .ok (.function (r.fields.getD []) (r.deviceCommand.getD false))
  | .callback => .ok (.callback (r.fields.getD []))

/-- An entry of a kind, from its members. -/
def entryOf (kind : Kind) (r : EntryParts) : Except Fault DraftEntry := do
  let name ← need "name" r.name
  if kind = .builtin then return .builtin name
  else
    let shape ← shapeOf r kind
    return .declared name (r.isExtension.getD false) shape

/-- The tag of an entry. -/
def decodeTag : Decoder Kind := fun depth t => do
  let tag ← Decoder.string .tag depth t
  knownTag (Kind.all.map fun kind => (kind.tag, kind)) tag

/-- The name of the member that holds the tag. -/
def tagName : String := "type"

/-- Reads all members of an entry and decodes the tag among them. -/
def tagAmong (depth : Nat) :
    List (Except Break String × Tree) → Option Kind → Except Fault (Option Kind)
  | [], found => .ok found
  | (key, t) :: rest, found => do
    let k ← literal key
    if k = tagName then
      match found with
      | some _ => .error (.shape (.duplicateMember tagName))
      | none =>
        let kind ← decodeTag depth t
        tagAmong depth rest (some kind)
    else
      let _ ← t.read depth
      tagAmong depth rest found

/-- Whether a member holds the tag. -/
def isTag (m : Except Break String × Tree) : Bool :=
  match m.1 with
  | .ok k => k == tagName
  | .error _ => false

/-- An entry: an object with a tag among its members, or an array with its tag in front. -/
def decodeEntry : Decoder DraftEntry
  | depth, .object ms stop => do
    Tree.enter depth
    let found ← tagAmong (depth + 1) ms none
    closed stop
    let kind ← need tagName found
    let r ← (variant kind).read .blank depth (.object (ms.filter (!isTag ·)) none)
    entryOf kind r
  | depth, .array ts stop => do
    Tree.enter depth
    match ts with
    | [] =>
      closed stop
      .error (.shape (.missingMember tagName))
    | t :: ts =>
      let kind ← decodeTag (depth + 1) t
      let _ ← Tree.readItems (depth + 1) ts
      closed stop
      let r ← (variant kind).read .blank depth (.array ts none)
      entryOf kind r
  | _, t => t.mismatch (.record "internally tagged enum RawEntry")

/-- A module while it is read. -/
structure ModuleParts where
  name : Option String
  builtIn : Option Bool
  requires : Option (List String)
  entries : Option (List DraftEntry)
  doc : Option (Option ModuleDoc)

/-- The shape of a module. -/
def moduleRecord : Record ModuleParts where
  title := "struct RawModule"
  surplus := .malformed
  members :=
    [.slot "name" true (·.name) (fun r a => { r with name := some a }) (.string .string),
      .slot "is_built_in" false (·.builtIn) (fun r a => { r with builtIn := some a }) .boolean,
      .slot "required_modules" false (·.requires) (fun r a => { r with requires := some a })
        (.list (.string .string)),
      .slot "declarations" false (·.entries) (fun r a => { r with entries := some a })
        (.list decodeEntry),
      .slot "doc" false (·.doc) (fun r a => { r with doc := some a })
        (.nullable (decodeDoc .malformed))]

/-- A module. -/
def decodeModule : Decoder DraftModule := fun depth t => do
  let r ← moduleRecord.read ⟨none, none, none, none, none⟩ depth t
  let name ← need "name" r.name
  return ⟨name, r.builtIn.getD false, r.requires.getD [], r.entries.getD [], r.doc.getD none⟩

/-- A document while it is read. -/
structure RootParts where
  lead : Option (Option String)
  modules : Option (List DraftModule)

/-- The shape of a document. -/
def rootRecord : Record RootParts where
  title := "struct RawIr"
  surplus := .malformed
  members :=
    [.slot "prefix" false (·.lead) (fun r a => { r with lead := some a })
        (.nullable (.string .string)),
      .slot "modules" false (·.modules) (fun r a => { r with modules := some a })
        (.list decodeModule)]

/-- A document. -/
def decodeRoot : Decoder Draft := fun depth t => do
  let r ← rootRecord.read ⟨none, none⟩ depth t
  return ⟨r.lead.getD none, r.modules.getD []⟩

/-- The draft in a text. -/
def ofText (text : String) : Except Fault Draft :=
  decode decodeRoot text

end Bindery.Draft
