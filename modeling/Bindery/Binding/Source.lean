import Bindery.Binding.Declaration

/-!
# Generated modules

The source of a module, in Rust, is its documentation, the imports, its declarations in order and
the short names. A run goes through the modules in order; it ends at the first that fails.

* `Outcome`: a result together with the events up to it.
* `Api.moduleScript`, `Api.generateModule`: the source of one module.
* `Api.generate`: the sources of all modules.
* `crateRoot`: the root module of the generated modules.
-/

namespace Bindery

/-- A result, and what was reported before it was there. -/
structure Outcome (α : Type) where
  result : Except BindingError α
  events : List Event

namespace Outcome

variable {α β : Type}

/-- A result without events. -/
def ok (a : α) : Outcome α := ⟨.ok a, []⟩

/-- An event before everything else. -/
def after (e : Event) (o : Outcome α) : Outcome α := ⟨o.result, e :: o.events⟩

/-- A result that is changed. -/
def map (f : α → β) (o : Outcome α) : Outcome β := ⟨o.result.map f, o.events⟩

/-- What follows a result; a failure is followed by nothing. -/
def andThen (o : Outcome α) (f : α → Outcome β) : Outcome β :=
  match o.result with
  | .ok a =>
    let next := f a
    ⟨next.result, o.events ++ next.events⟩
  | .error e => ⟨.error e, o.events⟩

end Outcome

/-- The lines at the top of every source. -/
def importsHead : List String :=
  ["#[allow(unused_imports)]", "use std::os::raw::\x7bc_void, c_char\x7d;",
    "#[allow(unused_imports)]", "use bitflags::bitflags;"]

/-- One generated module. -/
structure GeneratedModule where
  /-- The path of the header. -/
  module : String
  stem : String
  source : String
deriving DecidableEq, Repr

/-- The name of the file of a generated module. -/
def GeneratedModule.fileName (m : GeneratedModule) : String :=
  m.stem ++ ".rs"

/-- The root module, which declares every generated module. -/
def crateRoot (modules : List GeneratedModule) : String :=
  unlines (modules.map fun m => "pub mod " ++ m.stem ++ ";")

namespace Api

/-- Whether the module with a path only declares built-in types. -/
def isBuiltIn (api : Api) (path : String) : Bool :=
  match api.module? path with
  | some m => m.builtIn
  | none => false

/-- The first requirement of a module that is not one of the interface's own. -/
def foreignRequirement? (cfg : Config) (m : Module) : Option String :=
  m.requires.find? fun path => (cfg.stem? path).isNone

/-- The imports of a module: what it requires, built-in types apart. -/
def importLines (api : Api) (cfg : Config) (m : Module) : List String :=
  (m.requires.filter (!api.isBuiltIn ·)).filterMap fun path =>
    (cfg.stem? path).map fun stem => "use crate::" ++ stem ++ "::*;"

/-- The script of one declaration of a module, behind a blank line. -/
def declarationScript (s : Setting) (id : String) : Script :=
  match s.registry.resolve id with
  | .error err => [.fail err]
  | .ok e =>
    match s.declare e with
    | [] => []
    | steps => .code "" :: steps

/-- The script of a module, short names apart. -/
def moduleScript (api : Api) (cfg : Config) (m : Module) : Script :=
  let s : Setting := ⟨api.registry, m.doc, cfg⟩
  (if s.documents then s.moduleDoc else []) ++ importsHead.map .code ++
    (api.importLines cfg m).map .code ++ m.declares.flatMap (declarationScript s)

/-- The short names of a script, line by line behind a blank line. -/
def reexportLines (script : Script) : List String :=
  "" :: (Reexports.empty.registerAll script.exports).lines

/-- The source of a module. Modules of built-in types have none, nor have modules that require one
outside the interface. -/
def generateModule (api : Api) (cfg : Config) (m : Module) : Outcome (Option String) :=
  if m.builtIn then .ok none
  else
    match foreignRequirement? cfg m with
    | some path => .after (.foreignRequirement m.name path cfg.scope) (.ok none)
    | none =>
      let script := api.moduleScript cfg m
      ⟨script.result.map fun lines => some (unlines (lines ++ reexportLines script)),
        script.events⟩

/-- What a run makes of one module. -/
def generateOne (api : Api) (cfg : Config) (m : Module) : Outcome (Option GeneratedModule) :=
  if m.builtIn then .after (.builtInModule m.name) (.ok none)
  else
    match cfg.stem? m.name with
    | none => .after (.foreignModule m.name cfg.scope) (.ok none)
    | some stem =>
      .after (.processing m.name)
        ((api.generateModule cfg m).map fun source => source.map fun text => ⟨m.name, stem, text⟩)

/-- The sources of modules in order. -/
def generateAll (api : Api) (cfg : Config) : List Module → Outcome (List GeneratedModule)
  | [] => .ok []
  | m :: ms =>
    (api.generateOne cfg m).andThen fun generated =>
      (generateAll api cfg ms).map fun more => generated.toList ++ more

/-- The sources of all modules of an interface. -/
def generate (api : Api) (cfg : Config) : Outcome (List GeneratedModule) :=
  api.generateAll cfg api.modules

end Api

end Bindery
