import Bindery.Api.Description
import Bindery.Api.Error

/-!
# Validation

Whether an interface is consistent: every reference leads to an entry, counts name a field beside
theirs, cases have different names, bits have different indices that fit.

* `Entry.faults`: everything wrong with one entry, in the order of its members.
* `Api.undeclared`: the declarations of modules that lead to no entry.
* `Api.validateIn`: the first fault, entries being visited in a given order; `Api.validate` takes
  the order of the registry.
-/

namespace Bindery

/-- A reference of the entry `owner` that leads nowhere. -/
def referenceFaults (r : Registry) (owner reference : String) : List LoadError :=
  if r.contains reference then [] else [.unresolved owner reference]

/-- The faults of a field among the fields with the given displayed names. -/
def fieldFaults (r : Registry) (id : String) (names : List String) (f : Field) :
    List LoadError :=
  referenceFaults r id f.typeId ++
    match f.count with
    | some (.sibling count) =>
      if count ∈ names then [] else [.invalid (.strayCount count f.name.display id)]
    | _ => []

/-- The faults of a list of fields. -/
def fieldListFaults (r : Registry) (id : String) (fields : List Field) : List LoadError :=
  fields.flatMap (fieldFaults r id (fields.map (·.name.display)))

/-- The faults of parameters and result; the result comes last. -/
def signatureFaults (r : Registry) (id : String) (s : Signature) : List LoadError :=
  fieldListFaults r id s.params ++
    match s.result with
    | some reference => referenceFaults r id reference
    | none => []

/-- Cases whose displayed name is among those seen before. -/
def caseFaults (id : String) : List String → List Case → List LoadError
  | _, [] => []
  | seen, c :: cs =>
    (if c.name.display ∈ seen then [.invalid (.repeatedCase c.name.display id)] else []) ++
      caseFaults id (c.name.display :: seen) cs

/-- Bits whose index is too high or among those seen before. -/
def flagFaults (id : String) : List Nat → List Flag → List LoadError
  | _, [] => []
  | seen, b :: bs =>
    (if maxBitIndex < b.index then [.invalid (.bitTooHigh b.index id)]
      else if b.index ∈ seen then [.invalid (.repeatedBit b.index id)]
      else []) ++
      flagFaults id (b.index :: seen) bs

/-- Everything wrong with an entry, in the order of its members. -/
def Entry.faults (r : Registry) : Entry → List LoadError
  | .builtin _ _ => []
  | .declared id _ shape =>
    match shape with
    | .typeAlias target => referenceFaults r id target
    | .definition _ => []
    | .handle => []
    | .enumeration cases => caseFaults id [] cases
    | .bitField bits => flagFaults id [] bits
    | .record fields => fieldListFaults r id fields
    | .union variants => fieldListFaults r id variants
    | .function signature _ => signatureFaults r id signature
    | .callback signature => signatureFaults r id signature

/-- The declarations that lead to no entry, in the order of the modules. -/
def Api.undeclared (api : Api) : List LoadError :=
  api.modules.flatMap fun m => m.declares.flatMap (referenceFaults api.registry m.name)

/-- Fails with the first fault: of the modules, then of the entries in the given order. -/
def Api.validateIn (api : Api) (order : List Entry) : Except LoadError Unit :=
  match api.undeclared ++ order.flatMap (Entry.faults api.registry) with
  | [] => .ok ()
  | fault :: _ => .error fault

/-- Fails with the first fault of an interface. -/
def Api.validate (api : Api) : Except LoadError Unit :=
  api.validateIn api.registry.entries

end Bindery
