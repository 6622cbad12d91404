import Bindery.Binding.Error
import Bindery.Binding.Event
import Bindery.Binding.Reexports

/-!
# Scripts

Writing a declaration is a sequence of steps: lines of code, lines of comment, short names that are
registered, events that are reported, and possibly a failure. What a script amounts to is read off
its steps up to the first failure.

* `Step`, `Script`: the steps.
* `Script.collect`: what the steps have of one kind, be it lines, short names, events or failures.
* `Script.failure?`, `Script.lines`, `Script.exports`, `Script.events`: what a script amounts to.
* `Script.result`: its lines, if it does not fail.
* `unlines`: lines as a text.
-/

namespace Bindery

/-- A step of writing a declaration. -/
inductive Step where
  | code (line : String)
  | comment (line : String)
  | register (e : Reexport)
  | report (e : Event)
  | fail (e : BindingError)
deriving DecidableEq, Repr

/-- Lines as a text; each ends with a line feed. -/
def unlines (lines : List String) : String :=
  String.join (lines.map (· ++ "\n"))

/-- A sequence of steps. -/
abbrev Script := List Step

namespace Step

/-- The line that a step writes. -/
@[simp] def line? : Step → Option String
  | code l => some l
  | comment l => some l
  | _ => none

/-- The short name that a step registers. -/
@[simp] def reexport? : Step → Option Reexport
  | register e => some e
  | _ => none

/-- The event that a step reports. -/
@[simp] def event? : Step → Option Event
  | report e => some e
  | _ => none

/-- The failure of a step. -/
@[simp] def error? : Step → Option BindingError
  | fail e => some e
  | _ => none

end Step

namespace Script

/-- What the steps of a script have of one kind, in order. -/
def collect {α : Type} (part? : Step → Option α) (s : Script) : List α :=
  s.filterMap part?

/-- The steps before the first failure. -/
def sound (s : Script) : Script :=
  s.takeWhile fun step => step.error?.isNone

/-- The first failure. -/
def failure? (s : Script) : Option BindingError :=
  s.findSome? Step.error?

/-- The lines that are written. -/
def lines (s : Script) : List String :=
  s.sound.collect Step.line?

/-- The short names that are registered; they stay registered if a later step fails. -/
def exports (s : Script) : List Reexport :=
  s.sound.collect Step.reexport?

/-- The events that are reported. -/
def events (s : Script) : List Event :=
  s.sound.collect Step.event?

/-- The lines of a script that does not fail. -/
def result (s : Script) : Except BindingError (List String) :=
  match s.failure? with
  | some e => .error e
  | none => .ok s.lines

/-- A step that may fail: a line of code from a text, if there is one. -/
def attempt (text : Except BindingError String) (line : String → String) : Script :=
  match text with
  | .ok t => [.code (line t)]
  | .error e => [.fail e]

end Script

end Bindery
