import Bindery.Files.Write

/-!
# The command

The command reads a description and writes the generated modules. Its first argument is the path of
the description, its second the output directory; both have defaults, further arguments are ignored.

* `Command.ofArgs`: what the arguments ask for.
* `Command.steps`: the operations on files, given what reading the input gave.
* `Command.run`: the whole run on a file system.
* `Failure.text`: a failure with its chain of causes.
-/

namespace Bindery

/-- Why a command failed: what it was doing, and the causes, each that of the one before. -/
structure Failure where
  context : String
  causes : List String
deriving DecidableEq, Repr

/-- A text with every line but the first behind an indentation. -/
def indented (indent : String) (text : String) : String :=
  String.ofList (Text.joined ('\n' :: indent.toList) (Text.pieces '\n' text.toList))

/-- The causes of a failure, numbered if there are several. -/
def causeLines : Nat → List String → String
  | _, [] => ""
  | n, cause :: rest =>
    let number := toString n
    "\n" ++ String.ofList (List.replicate (5 - number.length) ' ') ++ number ++ ": " ++
      indented "       " cause ++ causeLines (n + 1) rest

/-- A failure as it is printed. -/
def Failure.text (f : Failure) : String :=
  "Error: " ++ f.context ++
    (match f.causes with
    | [] => ""
    | [cause] => "\n\nCaused by:\n    " ++ indented "    " cause
    | causes => "\n\nCaused by:" ++ causeLines 0 causes) ++
    "\n"

/-- A load error and what caused it. -/
def LoadError.causes (e : LoadError) : List String :=
  match e with
  | .json fault => [e.message, fault.message?.getD fault.category]
  | .file fault => [e.message, fault.message]
  | _ => [e.message]

/-- A run error and what caused it. -/
def RunError.causes (e : RunError) : List String :=
  match e with
  | .description error => e.message :: error.causes
  | .file fault => [e.message, fault.message]
  | .binding _ => [e.message]

/-- What a command is asked to do. -/
structure Command where
  input : String
  config : Config
deriving DecidableEq, Repr

/-- How a command ends. -/
structure Exit where
  code : Nat
  stderr : String
  disk : Disk

namespace Command

/-- The description that is read unless another is given. -/
def defaultInput : String := "c_api/taichi.json"

/-- What the arguments ask for. -/
def ofArgs (args : List String) : Command :=
  ⟨args[0]?.getD defaultInput,
    { Config.default with outputDir := args[1]?.getD Config.default.outputDir }⟩

/-- A description that could not be loaded. -/
def loadFailure (c : Command) (e : LoadError) : Failure :=
  ⟨"failed to load " ++ c.input, e.causes⟩

/-- Modules that could not be generated or written. -/
def generateFailure (e : RunError) : Failure :=
  ⟨"binding generation failed", e.causes⟩

/-- The operations on files that a command asks for, given what reading its input gave. -/
def steps (c : Command) (text : Except FileFault String) : Except Failure (List FileStep) :=
  match text with
  | .error fault => .error (c.loadFailure (.file fault))
  | .ok text =>
    match Api.ofText .default text with
    | .error e => .error (c.loadFailure e)
    | .ok api =>
      match (api.generate c.config).result with
      | .error e => .error (generateFailure (.binding e))
      | .ok modules => .ok (writeSteps c.config c.config.outputDir modules)

/-- Runs a command on a file system. -/
def run (c : Command) (disk : Disk) : Exit :=
  match c.steps (disk.readText c.input) with
  | .error f => ⟨1, f.text, disk⟩
  | .ok steps =>
    match disk.performAll steps with
    | (none, disk) => ⟨0, "", disk⟩
    | (some fault, disk) => ⟨1, (generateFailure (.file fault)).text, disk⟩

end Command

end Bindery
