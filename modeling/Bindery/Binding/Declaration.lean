import Bindery.Api.Description
import Bindery.Binding.Reference
import Bindery.Binding.Script
import Bindery.Binding.TypeExpr
import Bindery.Config

/-!
# Declarations

The script that writes the declaration of an entry, with its documentation. Built-in types and
callbacks are not declared on their own.

* `Setting`: what the declarations of one module have in common.
* `Setting.headingScript`, `Setting.memberScript`, `Setting.parameterScript`: documentation.
* `Setting.declare`: the script of one entry.
-/

namespace Bindery

/-- What the declarations of a module depend on. -/
structure Setting where
  registry : Registry
  doc : Option ModuleDoc
  config : Config

/-- The attribute of a type that has the layout of its only field. -/
def transparentLayout : String := "#[repr(transparent)]"

/-- The attribute of plain values that can be compared. -/
def plainTraits : String := "#[derive(Clone, Copy, Debug, PartialEq, Eq)]"

namespace Setting

/-- Whether documentation is written. -/
def documents (s : Setting) : Bool :=
  s.config.docMode == .apiReference

/-- A line of documentation behind a comment sign. -/
def docLine (s : Setting) (sign text : String) : Script :=
  (s.registry.strayMarkers text).map (fun m => .report (.strayMarker m)) ++
    [.comment (sign ++ s.registry.resolveLine text)]

/-- The documentation of the module. -/
def moduleDoc (s : Setting) : Script :=
  match s.doc with
  | some doc => doc.lines.flatMap (s.docLine "//! ")
  | none => []

/-- The documentation text of an entry. -/
def entryDoc (s : Setting) (id : String) : List String :=
  match s.doc with
  | some doc => (Keyed.get? doc.entries id).getD []
  | none => []

/-- The documentation text of a member. -/
def memberDoc? (s : Setting) (id member : String) : Option String :=
  s.doc.bind fun doc => Keyed.get? doc.members (id ++ "." ++ member)

/-- The heading and the documentation of an entry. -/
def heading (s : Setting) (e : Entry) : Script :=
  match e.heading with
  | .ok h => [.comment ("/// " ++ h)] ++ (s.entryDoc e.id).flatMap (s.docLine "/// ")
  | .error err => [.fail err]

/-- The documentation of a member, as an indented line. -/
def memberLine (s : Setting) (id member : String) : Script :=
  match s.memberDoc? id member with
  | some text => s.docLine "  /// " text
  | none => []

/-- The documentation of a parameter, as an item of a list. -/
def parameterLine (s : Setting) (id parameter : String) : Script :=
  match s.memberDoc? id parameter with
  | some text => s.docLine ("/// - `" ++ parameter ++ "`: ") text
  | none => []

/-- The id of an entry as a comment, where no documentation is written. -/
def markScript (s : Setting) (e : Entry) : Script :=
  if s.config.docMode = .entryId then [.comment ("// " ++ e.id)] else []

/-- The heading and the documentation of an entry, where documentation is written. -/
def headingScript (s : Setting) (e : Entry) : Script :=
  if s.documents then s.heading e else []

/-- The documentation of a member, where documentation is written. -/
def memberScript (s : Setting) (id member : String) : Script :=
  if s.documents then s.memberLine id member else []

/-- The list of documented parameters under its heading, where documentation is written. -/
def parameterScript (s : Setting) (id : String) (params : List Field) : Script :=
  if s.documents && params.any (fun p => (s.memberDoc? id p.name.display).isSome) then
    [.comment "///", .comment "/// Parameters:"] ++
      params.flatMap fun p => s.parameterLine id p.name.display
  else []

/-- Registers the short name of an entry for its identifier. -/
def exportScript (e : Entry) : Script :=
  match e.shortIdent, e.declaredIdent with
  | .ok key, .ok target => [.register ⟨key, target⟩]
  | .error err, _ => [.fail err]
  | _, .error err => [.fail err]

/-- One case of an enumeration. -/
def caseScript (s : Setting) (id : String) (enumeration : Name) (c : Case) : Script :=
  match caseIdent id enumeration c.name with
  | .ok ident =>
    s.memberScript id c.name.display ++ [.code ("  " ++ ident ++ " = " ++ toString c.value ++ ",")]
  | .error err => [.fail err]

/-- One bit of a bit field. -/
def flagScript (s : Setting) (id : String) (b : Flag) : Script :=
  s.memberScript id b.name.display ++
    [.code ("  const " ++ b.name.bitIdent ++ " = 1 << " ++ toString b.index ++ ";")]

/-- One field of a record. -/
def fieldScript (s : Setting) (id : String) (f : Field) : Script :=
  s.memberScript id f.name.display ++
    Script.attempt (s.registry.fieldLine f) fun text => "  pub " ++ text ++ ","

/-- One parameter of a function. -/
def paramScript (s : Setting) (p : Field) : Script :=
  Script.attempt (s.registry.fieldLine p) fun text => "  " ++ text ++ ","

/-- A record or union with its fields in order. -/
def recordScript (s : Setting) (e : Entry) (keyword ident : String) (fields : List Field) :
    Script :=
  s.markScript e ++ s.headingScript e ++
    [.code "#[repr(C)]", .code "#[derive(Clone, Copy)]",
      .code ("pub " ++ keyword ++ " " ++ ident ++ " \x7b")] ++
    fields.flatMap (s.fieldScript e.id) ++ [.code "\x7d"]

/-- Another name for a type. Names of handles have no short form. -/
def aliasScript (s : Setting) (e : Entry) (name : Name) (target : String) : Script :=
  s.markScript e ++ s.headingScript e ++
    match s.registry.resolve target with
    | .error err => [.fail err]
    | .ok t =>
      (if t.isHandle then [] else exportScript e) ++
        Script.attempt (s.registry.typeName t) fun text =>
          "pub type " ++ name.typeIdent ++ " = " ++ text ++ ";"

/-- A numeric constant. -/
def definitionScript (s : Setting) (e : Entry) (name : Name) (value : String) : Script :=
  s.markScript e ++ s.headingScript e ++ exportScript e ++
    [.code ("pub const " ++ name.constIdent ++ ": u32 = " ++ value ++ ";")]

/-- A handle: a number in a type of its own. Handles have no short form. -/
def handleScript (s : Setting) (e : Entry) (name : Name) : Script :=
  s.markScript e ++ s.headingScript e ++
    [.code transparentLayout, .code plainTraits,
      .code ("pub struct " ++ name.typeIdent ++ "(pub usize);"),
      .code ("impl " ++ name.typeIdent ++ " \x7b"),
      .code "    pub fn null() -> Self \x7b",
      .code ("        " ++ name.typeIdent ++ "(0)"),
      .code "    \x7d",
      .code "\x7d"]

/-- An enumeration with the values of its cases. -/
def enumerationScript (s : Setting) (e : Entry) (name : Name) (cases : List Case) : Script :=
  s.markScript e ++ s.headingScript e ++ exportScript e ++
    [.code ("#[repr(" ++ Policy.enumRepr name ++ ")]"), .code plainTraits,
      .code ("pub enum " ++ name.typeIdent ++ " \x7b")] ++
    cases.flatMap (s.caseScript e.id name) ++ [.code "\x7d"]

/-- A set of flags. -/
def bitFieldScript (s : Setting) (e : Entry) (name : Name) (bits : List Flag) : Script :=
  s.markScript e ++ exportScript e ++ [.code "bitflags! \x7b"] ++ s.headingScript e ++
    [.code transparentLayout, .code "#[derive(Clone, Copy, Debug, PartialEq, Eq, Hash)]",
      .code ("pub struct " ++ name.flagsIdent ++ ": u32 \x7b")] ++
    bits.flatMap (s.flagScript e.id) ++ [.code "\x7d", .code "\x7d"]

/-- A function of the linked library. -/
def functionScript (s : Setting) (e : Entry) (name : Name) (signature : Signature) : Script :=
  s.markScript e ++ exportScript e ++
    [.code ("#[link(name = \"" ++ s.config.linkName ++ "\")]"),
      .code "unsafe extern \"C\" \x7b"] ++
    s.headingScript e ++ s.parameterScript e.id signature.params ++
    [.code ("pub fn " ++ name.functionIdent ++ "(")] ++
    signature.params.flatMap s.paramScript ++
    (Script.attempt (s.registry.resultType signature.result) fun text => ") -> " ++ text ++ ";") ++
    [.code "\x7d"]

/-- The script that declares an entry. -/
def declare (s : Setting) (e : Entry) : Script :=
  match e with
  | .builtin _ _ => []
  | .declared _ name shape =>
    match shape with
    | .typeAlias target => s.aliasScript e name target
    | .definition value => s.definitionScript e name value
    | .handle => s.handleScript e name
    | .enumeration cases => s.enumerationScript e name cases
    | .bitField bits => s.bitFieldScript e name bits
    | .record fields =>
      (if Policy.isInfoType name.typeIdent then exportScript e else []) ++
        s.recordScript e "struct" name.typeIdent fields
    | .union variants => exportScript e ++ s.recordScript e "union" name.typeIdent variants
    | .function signature _ => s.functionScript e name signature
    | .callback _ => []

end Setting

end Bindery
