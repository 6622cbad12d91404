import Bindery.Binding.Source
import Bindery.Document.Load
import Bindery.Files.Disk

/-!
# Writing the output

All sources are generated before the first file is touched. Then the output directory is made and
the files are written in the order of the modules, with the root module last if there is one.

* `writeSteps`: the operations that write generated modules.
* `Api.writeTo`: generating and writing to a directory.
* `Disk.loadApi`: the interface that a file describes.
* `generateFile`: from a file to files.
-/

namespace Bindery

/-- The file of the root module. -/
def crateRootFile : String := "lib.rs"

/-- The operations that write generated modules to a directory. -/
def writeSteps (cfg : Config) (dir : String) (modules : List GeneratedModule) : List FileStep :=
  [.makeDirs dir] ++ modules.map (fun m => .write (Path.join dir m.fileName) m.source) ++
    if cfg.crateRoot then [.write (Path.join dir crateRootFile) (crateRoot modules)] else []

/-- The end of a run that writes files: the paths written or why it failed, the file system as the
run leaves it, and what was reported. -/
structure WriteOutcome where
  result : Except RunError (List String)
  disk : Disk
  events : List Event

/-- Generates all modules and writes them to a directory. -/
def Api.writeTo (api : Api) (cfg : Config) (dir : String) (disk : Disk) : WriteOutcome :=
  let generated := api.generate cfg
  match generated.result with
  | .error e => ⟨.error (.binding e), disk, generated.events⟩
  | .ok modules =>
    let steps := writeSteps cfg dir modules
    match disk.performAll steps with
    | (none, disk) => ⟨.ok (steps.filterMap FileStep.written?), disk, generated.events⟩
    | (some fault, disk) => ⟨.error (.file fault), disk, generated.events⟩

/-- The interface that a file describes. -/
def Disk.loadApi (disk : Disk) (table : BuiltinTable) (path : String) : Except LoadError Api :=
  match disk.readText path with
  | .ok text => Api.ofText table text
  | .error fault => .error (.file fault)

/-- Generates from the description in a file and writes to a directory. -/
def generateFile (table : BuiltinTable) (cfg : Config) (input dir : String) (disk : Disk) :
    WriteOutcome :=
  match disk.loadApi table input with
  | .ok api => api.writeTo cfg dir disk
  | .error e => ⟨.error (.description e), disk, []⟩

end Bindery
