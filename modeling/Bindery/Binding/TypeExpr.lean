import Bindery.Api.Registry
import Bindery.Binding.Ident

/-!
# Types

How references to types are written. A callback is written out as the type of a function pointer,
which may contain further callbacks.

* `fieldText`: a field with its type, by a given reading of type references.
* `signatureText`: the type of a function pointer.
* `Registry.typeName`: the type that an entry stands for.
* `Registry.typeRef`, `Registry.resultType`, `Registry.fieldLine`: references, results and fields.
-/

namespace Bindery

/-- A field and its type. Indirection comes before the number of elements. -/
def fieldText (typeRef : String → Except BindingError String) (f : Field) :
    Except BindingError String :=
  (typeRef f.typeId).map fun type =>
    let name := Policy.fieldName f.name.display
    if f.isPointer then name ++ ": *" ++ (if f.byMut then "mut" else "const") ++ " " ++ type
    else
      match f.fixedCount with
      | some n => name ++ ": [" ++ type ++ "; " ++ toString n ++ "]"
      | none => name ++ ": " ++ type

/-- Fields one by one, up to the first without a type. -/
def fieldTexts (typeRef : String → Except BindingError String) :
    List Field → Except BindingError (List String)
  | [] => .ok []
  | f :: fs => do
    let t ← fieldText typeRef f
    let ts ← fieldTexts typeRef fs
    return t :: ts

/-- The type of a pointer to a function, which may be null. -/
def signatureText (typeRef : String → Except BindingError String) (s : Signature) :
    Except BindingError String := do
  let params ← fieldTexts typeRef s.params
  let result ←
    match s.result with
    | some id => (typeRef id).map (" -> " ++ ·)
    | none => .ok ""
  return "Option<unsafe extern \"C\" fn(" ++ ", ".intercalate params ++ ")" ++ result ++ ">"

namespace Registry

/-- The type that an entry stands for, inside the signatures of the callbacks in `path`. The fuel
bounds the number of callbacks inside one another; it runs out only where one of them comes
again. -/
def typeWithin (r : Registry) : Nat → List String → Entry → Except BindingError String
  | _, _, .builtin _ spelling => .ok spelling
  | fuel, path, .declared id name shape =>
    match shape with
    | .bitField _ => .ok name.flagsIdent
    | .definition _ => .error (.notAType id .definition)
    | .function _ _ => .error (.notAType id .function)
    | .callback signature =>
      match fuel with
      | 0 => .error (.selfContaining id)
      | fuel + 1 =>
        if id ∈ path then .error (.selfContaining id)
        else
          signatureText
            (fun reference =>
              match r.find? reference with
              | some e => typeWithin r fuel (id :: path) e
              | none => .error (.unknownEntry reference))
            signature
    | _ => .ok name.typeIdent

/-- The type that an entry stands for. -/
def typeName (r : Registry) (e : Entry) : Except BindingError String :=
  r.typeWithin (r.size + 1) [] e

/-- The entry with an id, which must exist. -/
def resolve (r : Registry) (id : String) : Except BindingError Entry :=
  match r.find? id with
  | some e => .ok e
  | none => .error (.unknownEntry id)

/-- The type that an id refers to. -/
def typeRef (r : Registry) (id : String) : Except BindingError String :=
  (r.resolve id).bind r.typeName

/-- The type of a result. -/
def resultType (r : Registry) : Option String → Except BindingError String
  | some id => r.typeRef id
  | none => .ok "()"

/-- A field and its type. -/
def fieldLine (r : Registry) (f : Field) : Except BindingError String :=
  fieldText r.typeRef f

end Registry

end Bindery
