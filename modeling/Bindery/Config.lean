import Bindery.Json.Record
import Bindery.Text.Pieces

/-!
# Settings

What ties the generator to one interface: which modules are its own, which library the functions
come from, where the output goes and how it is annotated.

* `Config`, `Config.default`: the settings.
* `Config.stem?`: the name of the generated module for the path of a header.
* `Config.ofText`, `Config.decode`: settings read from a text or from a value.
-/

namespace Bindery

/-- How declarations are annotated. -/
inductive DocMode where
  /-- Documentation comments with headings and resolved references. -/
  | apiReference
  /-- One comment with the id of the entry. -/
  | entryId
deriving DecidableEq, Repr

/-- The word for a mode in settings. -/
def DocMode.tag : DocMode → String
  | apiReference => "api_reference"
  | entryId => "entry_id"

/-- The settings of the generator. -/
structure Config where
  /-- How the paths of the interface's own modules begin. -/
  scope : String
  /-- How the paths of headers end. -/
  headerExtension : String
  /-- The library that functions are linked from. -/
  linkName : String
  outputDir : String
  docMode : DocMode
  /-- Whether a root module is written that lists all others. -/
  crateRoot : Bool
deriving DecidableEq, Repr

namespace Config

/-- The settings that hold unless others are given. -/
def default : Config :=
  ⟨"taichi/", ".h", "taichi_c_api", "c_api/rust", .apiReference, false⟩

instance : Inhabited Config := ⟨default⟩

/-- The name of the generated module for a header: its path without the beginning and the extension.
Paths outside the interface have none; a path without the extension keeps its end. -/
def stem? (cfg : Config) (path : String) : Option String :=
  (Text.afterFront? cfg.scope.toList path.toList).map fun rest =>
    String.ofList ((Text.beforeBack? cfg.headerExtension.toList rest).getD rest)

open Json

/-- The modes by their words. -/
def docModes : List (String × DocMode) :=
  [(DocMode.apiReference.tag, .apiReference), (DocMode.entryId.tag, .entryId)]

/-- A mode in a value that was read before: its word, or an object with the word as its only key and
null under it. -/
def decodeModeValue : Decoder DocMode
  | _, .string s => do knownTag docModes (← literal s)
  | depth, .object ms stop => do
    let values ← Decoder.entries (Tree.read (depth + 1)) ms
    closed stop
    match values, ms with
    | [(key, _)], [(_, t)] =>
      let mode ← knownTag docModes key
      Decoder.nothing (depth + 1) t
      return mode
    | _, _ => .error (.shape .notSingle)
  | _, t => t.mismatch .choice

/-- A mode in a text: its word, or an object with the word as its only key and null under it. What
is neither a string nor an object is not JSON here. -/
def decodeModeText : Decoder DocMode
  | _, .string s => do knownTag docModes (← literal s)
  | depth, .object ms stop => do
    Tree.enter depth
    match ms with
    | [] => .error (.broken ((stop.map (·.choice)).getD .malformed))
    | (key, t) :: rest =>
      let mode ← knownTag docModes (← literal key)
      Decoder.nothing (depth + 1) t
      match rest, stop with
      | [], none => return mode
      | [], some r => .error (.broken r.choice)
      | _ :: _, _ => .error (.broken .malformed)
  | _, .broken r => .error (.broken r.choice)
  | _, _ => .error (.broken .malformed)

/-- Settings while they are read. -/
structure Parts where
  scope : Option String
  headerExtension : Option String
  linkName : Option String
  outputDir : Option String
  docMode : Option DocMode
  crateRoot : Option Bool

/-- The shape of settings. -/
def record (surplus : Surplus) : Record Parts where
  title := "struct GeneratorConfig"
  surplus := surplus
  members :=
    [.slot "namespace" false (·.scope) (fun r a => { r with scope := some a }) (.string .string),
      .slot "header_extension" false (·.headerExtension)
        (fun r a => { r with headerExtension := some a }) (.string .string),
      .slot "link_name" false (·.linkName) (fun r a => { r with linkName := some a })
        (.string .string),
      .slot "output_dir" false (·.outputDir) (fun r a => { r with outputDir := some a })
        (.string .path),
      .slot "doc_mode" false (·.docMode) (fun r a => { r with docMode := some a })
        (if surplus = .malformed then decodeModeText else decodeModeValue),
      .slot "emit_crate_root" false (·.crateRoot) (fun r a => { r with crateRoot := some a })
        .boolean]

/-- Settings; those that are not given keep their default. -/
def decode (surplus : Surplus) : Decoder Config := fun depth t => do
  let r ← (record surplus).read ⟨none, none, none, none, none, none⟩ depth t
  return ⟨r.scope.getD default.scope, r.headerExtension.getD default.headerExtension,
    r.linkName.getD default.linkName, r.outputDir.getD default.outputDir,
    r.docMode.getD default.docMode, r.crateRoot.getD default.crateRoot⟩

/-- The settings in a text. -/
def ofText (text : String) : Except Fault Config :=
  Json.decode (decode .malformed) text

end Config

end Bindery
