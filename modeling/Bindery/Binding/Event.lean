/-!
# Events

What a run reports besides its result, in order.

* `Event.level`, `Event.text`: the severity of an event and its wording.
-/

namespace Bindery

/-- Something that a run reports. -/
inductive Event where
  /-- A module of built-in types has nothing to generate. -/
  | builtInModule (module : String)
  /-- The path of a module is not one of the interface's own. -/
  | foreignModule (module : String) (scope : String)
  | processing (module : String)
  /-- A module needs one that is not the interface's own. -/
  | foreignRequirement (module : String) (required : String) (scope : String)
  /-- A symbol in documentation leads nowhere. -/
  | strayMarker (symbol : String)
deriving DecidableEq, Repr

/-- The severity of an event. -/
inductive Level where
  | debug
  | info
  | warn
deriving DecidableEq, Repr

/-- The word for a severity. -/
def Level.word : Level → String
  | debug => "DEBUG"
  | info => "INFO"
  | warn => "WARN"

namespace Event

/-- The severity of an event. -/
def level : Event → Level
  | builtInModule _ => .debug
  | processing _ => .info
  | _ => .warn

/-- The wording of an event. -/
def text : Event → String
  | builtInModule module => "skipping built-in module '" ++ module ++ "'"
  | foreignModule module scope =>
    "module '" ++ module ++ "' is outside '" ++ scope ++ "', skipped"
  | processing module => "processing module '" ++ module ++ "'"
  | foreignRequirement module required scope =>
    "module '" ++ module ++ "' requires '" ++ required ++ "' which is outside '" ++ scope
      ++ "', skipped"
  | strayMarker symbol => "Unable to resolve symbol " ++ symbol

end Event

end Bindery
