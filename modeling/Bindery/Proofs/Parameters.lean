import Bindery.Proofs.MemberLines

/-!
# Parameters and results

The parameters of a function or a callback are kept as they are written, except for those that stand
for the result. Of these, the last gives the result its type; its qualifiers and all that is written
in the others are dropped without being looked at.

* `DraftField.KeptAs`, `Signature.Accounts`: a parameter that is kept, and a result that accounts
  for the parameters that stand for it.
* `fieldType_eq_iff`: qualifiers are seen in the type that a parameter is written with.
* `toShape_withParams`: what a signature does not depend on.
* `parameters_kept`: **the other parameters are kept in order, and the result accounts for its own
  exactly if the last has no qualifiers and the rest agree with it**; `result_unaccounted`: two
  documents where it does not.
-/

namespace Bindery

/-- The parameters of a shape, as written. -/
def DraftShape.params? : DraftShape → Option (List DraftField)
  | function params _ => some params
  | callback params => some params
  | _ => none

/-- A shape with other parameters. -/
def DraftShape.withParams (params : List DraftField) : DraftShape → DraftShape
  | function _ deviceCommand => function params deviceCommand
  | callback _ => callback params
  | written => written

/-- The signature of a shape that can be called. -/
def Shape.callable? : Shape → Option Signature
  | function signature _ => some signature
  | callback signature => some signature
  | _ => none

/-- The parameters that do not stand for the result. -/
def properParams (params : List DraftField) : List DraftField :=
  params.filter (·.name ≠ resultName)

/-- The last of the parameters that stand for the result. -/
def lastResult? (params : List DraftField) : Option DraftField :=
  (params.filter (·.name = resultName)).getLast?

/-- **A parameter that is kept**, with its type and its qualifiers. -/
structure DraftField.KeptAs (p : DraftField) (f : Field) : Prop where
  name : f.name = .new p.name
  typeId : f.typeId = p.typeId
  byRef : f.byRef = p.byRef
  byMut : f.byMut = p.byMut
  count : f.count = p.count

/-- A parameter without qualifiers. -/
@[mk_iff]
structure DraftField.Unqualified (p : DraftField) : Prop where
  byRef : p.byRef = false
  byMut : p.byMut = false
  count : p.count = none

/-- **A result that accounts for parameters**: it has the type that each of those that stand for it
would be written with if it were another parameter. -/
def Signature.Accounts (r : Registry) (s : Signature) (params : List DraftField) : Prop :=
  ∀ p ∈ params, p.name = resultName → fieldType r.typeRef p.toField = r.resultType s.result

theorem ne_of_length {a b : String} (h : a.length ≠ b.length) : a ≠ b :=
  fun hab => h (congrArg String.length hab)

/-- **Qualifiers are seen in the type of a parameter.** -/
theorem fieldType_eq_iff {typeRef : String → Except BindingError String} {p : DraftField}
    {type : String} (h : typeRef p.typeId = .ok type) :
    fieldType typeRef p.toField = .ok type ↔ p.Unqualified := by
  have href : typeRef p.toField.typeId = .ok type := h
  have hpointer : p.toField.isPointer = true ↔
      p.byRef = true ∨ p.byMut = true ∨ p.toField.isDynamic = true := by
    simp [Field.isPointer, DraftField.toField, or_assoc]
  unfold fieldType
  rw [href]
  simp only [Except.map, Except.ok.injEq]
  split
  · rename_i hptr
    refine iff_of_false (ne_of_length ?_) fun hplain => ?_
    · -- a pointer has a longer type
      simp only [String.length_append]
      have : "*".length = 1 := rfl
      omega
    · simp [Field.isPointer, Field.isDynamic, DraftField.toField, hplain.byRef, hplain.byMut,
        hplain.count] at hptr
  · rename_i hptr
    split
    · rename_i n hcount
      refine iff_of_false (ne_of_length ?_) fun hplain => ?_
      · -- and so has an array
        simp only [String.length_append]
        have : "[".length = 1 := rfl
        omega
      · simp [Field.fixedCount, DraftField.toField, hplain.count] at hcount
    · rename_i hcount
      refine iff_of_true rfl ⟨?_, ?_, ?_⟩
      · exact Bool.eq_false_iff.2 fun hr => hptr (hpointer.2 (.inl hr))
      · exact Bool.eq_false_iff.2 fun hm => hptr (hpointer.2 (.inr (.inl hm)))
      · -- a count is a length or the name of another parameter
        rcases hc : p.count with _ | n | sibling
        · rfl
        · simp [Field.fixedCount, DraftField.toField, hc] at hcount
        · simp [Field.isPointer, Field.isDynamic, DraftField.toField, hc] at hptr

section Signatures

variable {id : String} {written : DraftShape} {shape : Shape} {params : List DraftField}

theorem callable?_of_toShape (h : written.toShape id = .ok shape)
    (hp : written.params? = some params) :
    shape.callable? = some (.ofParams params) := by
  cases written with
  | function written deviceCommand =>
    obtain rfl := Except.ok.inj h
    exact congrArg (some ∘ Signature.ofParams) (Option.some.inj hp)
  | callback written =>
    obtain rfl := Except.ok.inj h
    exact congrArg (some ∘ Signature.ofParams) (Option.some.inj hp)
  | _ => cases hp

/-- **What a signature does not depend on**: what the parameters that stand for the result say,
except for the type that the last of them refers to. -/
theorem toShape_withParams {params' : List DraftField} (hp : written.params? = some params)
    (hproper : properParams params' = properParams params)
    (hresult : (lastResult? params').map DraftField.typeId =
      (lastResult? params).map DraftField.typeId) :
    (written.withParams params').toShape id = written.toShape id := by
  have hsame : Signature.ofParams params' = Signature.ofParams params :=
    congrArg₂ Signature.mk (congrArg (List.map DraftField.toField) hproper) hresult
  cases written with
  | function written deviceCommand =>
    obtain rfl := Option.some.inj hp
    simp only [DraftShape.withParams, DraftShape.toShape, hsame]
  | callback written =>
    obtain rfl := Option.some.inj hp
    simp only [DraftShape.withParams, DraftShape.toShape, hsame]
  | _ => cases hp

theorem keptAs_ofParams (params : List DraftField) :
    List.Forall₂ DraftField.KeptAs (properParams params) (Signature.ofParams params).params :=
  List.forall₂_map_right_iff.2 (List.forall₂_same.2 fun _ _ => ⟨rfl, rfl, rfl, rfl, rfl⟩)

theorem mem_of_lastResult? {p : DraftField} (h : lastResult? params = some p) :
    p ∈ params ∧ p.name = resultName := by
  simpa using List.mem_of_getLast? h

/-- When a result accounts for the parameters that stand for it. -/
theorem accounts_iff {r : Registry} {p : DraftField} {type : String}
    (hlast : lastResult? params = some p) (htype : r.typeRef p.typeId = .ok type) :
    (Signature.ofParams params).Accounts r params ↔ p.Unqualified ∧
      ∀ q ∈ params, q.name = resultName → q ≠ p → fieldType r.typeRef q.toField = .ok type := by
  have hresult : r.resultType (Signature.ofParams params).result = .ok type := by
    have hof : (Signature.ofParams params).result = some p.typeId :=
      congrArg (Option.map DraftField.typeId) hlast
    rw [hof]
    exact htype
  obtain ⟨hmem, hname⟩ := mem_of_lastResult? hlast
  unfold Signature.Accounts
  rw [hresult]
  constructor
  · intro hall
    exact ⟨(fieldType_eq_iff htype).1 (hall p hmem hname), fun q hq hqname _ => hall q hq hqname⟩
  · rintro ⟨hplain, hothers⟩ q hq hqname
    by_cases hqp : q = p
    · rw [hqp]
      exact (fieldType_eq_iff htype).2 hplain
    · exact hothers q hq hqname hqp

end Signatures

section Written

variable {r : Registry} {id t type : String} {full : Name} {shape : Shape} {signature : Signature}

/-- A function is written with the type of its result. -/
theorem result_of_function {s : Setting} (hk : shape.kind = .function)
    (hs : shape.callable? = some signature) (hresult : signature.result = some t)
    (htype : s.registry.typeRef t = .ok type)
    (h : (s.declare (.declared id full shape)).failures = []) :
    ") -> " ++ type ++ ";" ∈ (s.declare (.declared id full shape)).code := by
  cases shape with
  | function signature' deviceCommand =>
    obtain rfl := Option.some.inj hs
    obtain ⟨types, result, -, hwritten, hcode⟩ := Setting.code_function h
    rw [hresult] at hwritten
    obtain rfl := Except.ok.inj (htype.symm.trans hwritten)
    rw [hcode]
    simp
  | _ => cases hk

/-- A callback is written with the type of its result. -/
theorem result_of_callback (hk : shape.kind = .callback) (hs : shape.callable? = some signature)
    (hresult : signature.result = some t) (htype : r.typeRef t = .ok type) {text : String}
    (h : r.typeName (.declared id full shape) = .ok text) :
    ∃ front, text = front ++ ") -> " ++ type ++ ">" := by
  cases shape with
  | callback signature' =>
    obtain rfl := Option.some.inj hs
    obtain ⟨types, result, -, hwritten, rfl⟩ := Registry.typeName_callback h
    obtain ⟨type', htype', rfl⟩ := hwritten t hresult
    obtain rfl := Except.ok.inj (htype.symm.trans htype')
    refine ⟨"Option<unsafe extern \"C\" fn(" ++
      ", ".intercalate (List.zipWith Field.text signature'.params types), ?_⟩
    have hjoin : ") -> " = ")" ++ " -> " := rfl
    rw [hjoin]
    simp only [String.append_assoc]
  | _ => cases hk

end Written

variable {table : BuiltinTable} {text : String} {api : Api}

/-- **What a loaded interface keeps of parameters.** Those of a function or a callback that do not
stand for the result are kept in their order, with their types and qualifiers. The result has the
type of the last one that stands for it, and is written so. Nothing else that these say makes a
difference to the entry: it accounts for them exactly if the last has no qualifiers and the others
would be written with its type. -/
theorem parameters_kept (h : Api.ofText table text = .ok api) :
    ∃ d, Draft.ofText text = .ok d ∧ ∀ name marked written params,
      .declared name marked written ∈ d.declarations → written.params? = some params →
      ∀ id full, id = written.kind.idOf name → full = entryName api.lead name marked →
      ∃ shape signature, api.registry.find? id = some (.declared id full shape) ∧
        shape.callable? = some signature ∧
        List.Forall₂ DraftField.KeptAs (properParams params) signature.params ∧
        signature.result = (lastResult? params).map DraftField.typeId ∧
        (∀ params', properParams params' = properParams params →
          (lastResult? params').map DraftField.typeId =
            (lastResult? params).map DraftField.typeId →
          (written.withParams params').toShape id = .ok shape) ∧
        ∀ p type, lastResult? params = some p → api.registry.typeRef p.typeId = .ok type →
          (signature.Accounts api.registry params ↔ p.Unqualified ∧ ∀ q ∈ params,
            q.name = resultName → q ≠ p → fieldType api.registry.typeRef q.toField = .ok type) ∧
          (shape.kind = .function → ∀ s : Setting, s.registry = api.registry →
            (s.declare (.declared id full shape)).failures = [] →
            ") -> " ++ type ++ ";" ∈ (s.declare (.declared id full shape)).code) ∧
          (shape.kind = .callback → ∀ text,
            api.registry.typeName (.declared id full shape) = .ok text →
            ∃ front, text = front ++ ") -> " ++ type ++ ">") := by
  obtain ⟨d, hd, -⟩ := toApi_of_ofText h
  refine ⟨d, hd, ?_⟩
  rintro name marked written params ha hp id full rfl rfl
  obtain ⟨shape, hshape, hfound⟩ := find?_of_declared h hd ha
  have hcallable := callable?_of_toShape hshape hp
  refine ⟨shape, _, hfound, hcallable, keptAs_ofParams params, rfl, ?_, ?_⟩
  · intro params' hproper hresult
    rw [toShape_withParams hp hproper hresult, hshape]
  · intro p type hlast htype
    have hresult : (Signature.ofParams params).result = some p.typeId :=
      congrArg (Option.map DraftField.typeId) hlast
    refine ⟨accounts_iff hlast htype, ?_, ?_⟩
    · rintro hk s hs hf
      exact result_of_function hk hcallable hresult (hs ▸ htype) hf
    · rintro hk text hname
      exact result_of_callback hk hcallable hresult htype hname

/-- A text with a function that returns a pointer, and a callback with two results. -/
def returnsText : String :=
  "[\"ti\",[[\"taichi/p.h\",true,[],[[\"builtin\",\"uint32_t\"]]],"
    ++ "[\"taichi/a.h\",false,[\"taichi/p.h\"],[[\"handle\",\"h\"],"
    ++ "[\"function\",\"f\",[[\"@return\",\"uint32_t\",true],[\"x\",\"handle.h\"]]],"
    ++ "[\"callback\",\"c\",[[\"@return\",\"uint32_t\"],[\"@return\",\"handle.h\"]]]]]]]"

/-- A table with one type. -/
def returnsTable : BuiltinTable :=
  BuiltinTable.empty.set "uint32_t" "u32"

/-- The parameters of the function in `returnsText`. -/
def pointerParams : List DraftField :=
  [⟨resultName, "uint32_t", true, false, none⟩, ⟨"x", "handle.h", false, false, none⟩]

/-- The parameters of the callback in `returnsText`. -/
def doubleParams : List DraftField :=
  [⟨resultName, "uint32_t", false, false, none⟩, ⟨resultName, "handle.h", false, false, none⟩]

/-- The document in `returnsText`. -/
def returnsDraft : Draft where
  lead := some "ti"
  modules := [⟨"taichi/p.h", true, [], [.builtin "uint32_t"], none⟩,
    ⟨"taichi/a.h", false, ["taichi/p.h"],
      [.declared "h" false .handle, .declared "f" false (.function pointerParams false),
        .declared "c" false (.callback doubleParams)], none⟩]

/-- The function in `returnsText`. -/
def pointerEntry : Entry :=
  .declared "function.f" (.withPrefix "ti" "f")
    (.function ⟨[⟨.new "x", "handle.h", false, false, none⟩], some "uint32_t"⟩ false)

/-- The callback in `returnsText`. -/
def doubleEntry : Entry :=
  .declared "callback.c" (.withPrefix "ti" "c") (.callback ⟨[], some "handle.h"⟩)

/-- The interface in `returnsText`. -/
def returns : Api where
  lead := some "ti"
  registry :=
    ⟨[.builtin "uint32_t" "u32", .declared "handle.h" (.withPrefix "ti" "h") .handle,
      pointerEntry, doubleEntry], by decide⟩
  modules := [⟨"taichi/p.h", true, [], ["uint32_t"], none⟩,
    ⟨"taichi/a.h", false, ["taichi/p.h"], ["handle.h", "function.f", "callback.c"], none⟩]

theorem draft_returns : Draft.ofText returnsText = .ok returnsDraft := by
  cbv

theorem ofText_returns : Api.ofText returnsTable returnsText = .ok returns := by
  unfold Api.ofText
  rw [draft_returns]
  cbv

/-- The function in `returnsText` keeps its parameter, but is written without the pointer that its
result asks for. -/
theorem parameters_kept_returns : Api.ofText returnsTable returnsText = .ok returns ∧
    List.Forall₂ DraftField.KeptAs (properParams pointerParams)
      [⟨.new "x", "handle.h", false, false, none⟩] ∧
    ¬ (Signature.ofParams pointerParams).Accounts returns.registry pointerParams ∧
    ") -> u32;" ∈ ((⟨returns.registry, none, .default⟩ : Setting).declare pointerEntry).code := by
  obtain ⟨d, hd, hall⟩ := parameters_kept ofText_returns
  obtain rfl : returnsDraft = d := Except.ok.inj (draft_returns.symm.trans hd)
  obtain ⟨shape, signature, hfound, hcallable, hkept, -, -, hresult⟩ :=
    hall "f" false (.function pointerParams false) pointerParams (by simp [returnsDraft,
      Draft.declarations]) rfl "function.f" (.withPrefix "ti" "f") rfl rfl
  have hentry : returns.registry.find? "function.f" = some pointerEntry := rfl
  obtain ⟨-, -, rfl⟩ := Entry.declared.inj (Option.some.inj (hentry.symm.trans hfound))
  obtain rfl := Option.some.inj hcallable
  obtain ⟨haccounts, hcode, -⟩ :=
    hresult ⟨resultName, "uint32_t", true, false, none⟩ "u32" (by decide) rfl
  refine ⟨ofText_returns, hkept, fun h => ?_, ?_⟩
  · have hplain := (haccounts.1 h).1.byRef
    cases hplain
  · exact hcode rfl ⟨returns.registry, none, .default⟩ rfl (by decide)

/-- **A result need not account for the parameters that stand for it**: neither for the qualifiers
of one alone, nor for one of two without any. -/
theorem result_unaccounted :
    (¬ ∀ (table : BuiltinTable) (text : String) (api : Api) (d : Draft),
      Api.ofText table text = .ok api → Draft.ofText text = .ok d →
      ∀ name marked written params, .declared name marked written ∈ d.declarations →
        written.params? = some params → (params.filter (·.name = resultName)).length = 1 →
        ∀ id full shape signature, api.registry.find? (written.kind.idOf name) =
          some (.declared id full shape) → shape.callable? = some signature →
          signature.Accounts api.registry params) ∧
    ¬ ∀ (table : BuiltinTable) (text : String) (api : Api) (d : Draft),
      Api.ofText table text = .ok api → Draft.ofText text = .ok d →
      ∀ name marked written params, .declared name marked written ∈ d.declarations →
        written.params? = some params → (∀ p ∈ params, p.Unqualified) →
        ∀ id full shape signature, api.registry.find? (written.kind.idOf name) =
          some (.declared id full shape) → shape.callable? = some signature →
          signature.Accounts api.registry params := by
  constructor
  · intro hall
    have h := hall _ _ _ _ ofText_returns draft_returns "f" false (.function pointerParams false)
      pointerParams (by simp [returnsDraft, Draft.declarations]) rfl rfl _ _ _ _ rfl rfl _
      (.head _) rfl
    revert h
    decide
  · intro hall
    have h := hall _ _ _ _ ofText_returns draft_returns "c" false (.callback doubleParams)
      doubleParams (by simp [returnsDraft, Draft.declarations]) rfl
      (by simp [doubleParams, DraftField.unqualified_iff]) _ _ _ _ rfl rfl _ (.head _) rfl
    revert h
    decide

end Bindery
