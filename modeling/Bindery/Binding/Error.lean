import Bindery.Api.Error
import Bindery.Api.Kind

/-!
# What has no binding

The causes for which an entry cannot be written down, and those for which a whole run fails.

* `BindingError`: an entry without a projection.
* `RunError`: a description that is refused, an entry without a projection, or a file that cannot
  be written.
-/

namespace Bindery

/-- Why an entry cannot be written down. -/
inductive BindingError where
  /-- An entry stands where a type is needed. -/
  | notAType (id : String) (kind : Kind)
  /-- A case begins with a digit, and its enumeration has no letter to put in front. -/
  | unsupportedCase (id : String) (case : String)
  /-- An entry is never declared on its own. -/
  | noDeclaration (id : String) (kind : Kind)
  | unknownEntry (id : String)
  /-- The signature of a callback contains the callback. -/
  | selfContaining (id : String)
deriving DecidableEq, Repr

/-- The wording of a binding error. -/
def BindingError.message : BindingError → String
  | .notAType id kind => "'" ++ id ++ "' is not a type (found " ++ kind.tag ++ ")"
  | .unsupportedCase id case =>
    "don't know how to rewrite case '" ++ case ++ "' of '" ++ id ++ "' that starts with a digit"
  | .noDeclaration id kind => "'" ++ id ++ "' doesn't need declaration (found " ++ kind.tag ++ ")"
  | .unknownEntry id => "unknown entry '" ++ id ++ "'"
  | .selfContaining id => "signature of '" ++ id ++ "' contains itself"

/-- Why a run fails. -/
inductive RunError where
  | description (error : LoadError)
  | file (fault : FileFault)
  | binding (error : BindingError)
deriving DecidableEq, Repr

/-- The wording of a run error. -/
def RunError.message : RunError → String
  | .description error => "IR error: " ++ error.message
  | .file fault => "IO error: " ++ fault.message
  | .binding error => error.message

end Bindery
