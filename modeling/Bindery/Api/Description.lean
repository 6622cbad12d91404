import Bindery.Keyed
import Bindery.Api.Registry

/-!
# Interfaces

A description of an interface: the prefix of its names, all its entries, and its modules in order.
A module lists the ids of the entries that it declares.

* `ModuleDoc`: documentation of a module, its entries and their members.
* `Module`: one module.
* `Api`: a whole interface; `Api.module?` finds a module by its path.
-/

namespace Bindery

/-- Documentation texts. Those of entries are found by id, those of members by id, point and
name. -/
structure ModuleDoc where
  lines : List String
  entries : Keyed (List String)
  members : Keyed String
deriving DecidableEq, Repr, Inhabited

/-- A module of an interface, known by the path of its header. -/
structure Module where
  name : String
  /-- A module that only declares built-in types. -/
  builtIn : Bool
  /-- The paths of the modules that this one needs. -/
  requires : List String
  /-- The ids of the entries that the module declares. -/
  declares : List String
  doc : Option ModuleDoc
deriving DecidableEq, Repr, Inhabited

/-- An interface. -/
structure Api where
  /-- The word or words in front of every name. -/
  lead : Option String
  registry : Registry
  modules : List Module
deriving Inhabited

/-- An interface without anything in it. -/
def Api.empty : Api := ⟨none, .empty, []⟩

/-- The first module with a given path. -/
def Api.module? (api : Api) (name : String) : Option Module :=
  api.modules.find? (·.name == name)

end Bindery
