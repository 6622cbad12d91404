import Bindery.Command

/-!
# The program

Carries out a command on the files of the computer: reads the input, performs the operations that
the command asks for, and prints why it failed.
-/

namespace Bindery

/-- The fault behind an error of the operating system. -/
def FileFault.ofError : IO.Error → FileFault
  | .noFileOrDirectory _ _ _ => .notFound
  | .alreadyExists _ _ _ => .alreadyExists
  | .inappropriateType _ code _ => if code = 20 then .notADirectory else .isADirectory
  | .invalidArgument _ code _ => if code = 36 then .nameTooLong else .badPath
  | _ => .notFound

/-- The text of a file of the computer. -/
def readInput (path : String) : IO (Except FileFault String) := do
  try
    let bytes ← IO.FS.readBinFile path
    match String.fromUTF8? bytes with
    | some text => return .ok text
    | none => return .error .notText
  catch e => return .error (.ofError e)

/-- Performs an operation on the files of the computer. -/
def FileStep.perform : FileStep → IO Unit
  | makeDirs path => IO.FS.createDirAll path
  | write path text => IO.FS.writeFile path text

end Bindery

/-- Runs the command that the arguments ask for. -/
def main (args : List String) : IO UInt32 := do
  let command := Bindery.Command.ofArgs args
  match command.steps (← Bindery.readInput command.input) with
  | .error failure =>
    IO.eprint failure.text
    return 1
  | .ok steps =>
    try
      steps.forM Bindery.FileStep.perform
      return 0
    catch e =>
      let fault := Bindery.FileFault.ofError e
      IO.eprint (Bindery.Command.generateFailure (.file fault)).text
      return 1
