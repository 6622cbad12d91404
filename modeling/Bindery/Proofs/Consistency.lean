import Mathlib.Data.List.Nodup
import Mathlib.Tactic.MkIffOfInductiveProp
import Bindery.Api.Validation

/-!
# Consistent interfaces

What an interface has to satisfy, said without the search for faults:

* `Shape.references`: the ids of the entries that a shape names.
* `Shape.Consistent`: references are registered, counts name a field beside theirs, cases have
  different displayed names, bits have different indices of at most 31.
* `faults_eq_nil_iff`: **an entry has no faults exactly if it is consistent**.
* `undeclared_eq_nil_iff`: no declaration is undeclared exactly if all are registered.
-/

namespace Bindery

/-- The types that a signature names, the result last. -/
def Signature.references (s : Signature) : List String :=
  s.params.map Field.typeId ++ s.result.toList

namespace Shape

/-- The ids of the entries that a shape names. -/
def references : Shape → List String
  | typeAlias target => [target]
  | record fields => fields.map Field.typeId
  | union variants => variants.map Field.typeId
  | function signature _ => signature.references
  | callback signature => signature.references
  | _ => []

/-- The result of a shape that can be called. -/
def result? : Shape → Option String
  | function signature _ => signature.result
  | callback signature => signature.result
  | _ => none

/-- The cases of a shape. -/
def cases : Shape → List Case
  | enumeration cases => cases
  | _ => []

/-- The bits of a shape. -/
def bits : Shape → List Flag
  | bitField bits => bits
  | _ => []

/-- **A shape without contradictions** in the given registry. -/
@[mk_iff]
structure Consistent (r : Registry) (s : Shape) : Prop where
  references : ∀ t ∈ s.references, r.contains t = true
  counts : ∀ f ∈ s.fields, ∀ count, f.count = some (.sibling count) →
    ∃ g ∈ s.fields, g.name.display = count
  cases : (s.cases.map (·.name.display)).Nodup
  bits : (s.bits.map Flag.index).Nodup
  fits : ∀ b ∈ s.bits, b.index ≤ 31

end Shape

/-- An entry without contradictions; nothing can be wrong with a built-in type. -/
def Entry.Consistent (r : Registry) : Entry → Prop
  | .builtin _ _ => True
  | .declared _ _ shape => shape.Consistent r

/-- **An interface without contradictions.** -/
structure Api.Consistent (api : Api) : Prop where
  declared : ∀ m ∈ api.modules, ∀ id ∈ m.declares, api.registry.contains id = true
  entries : ∀ e ∈ api.registry.entries, e.Consistent api.registry

variable {r : Registry} {id : String}

theorem referenceFaults_eq_nil_iff {owner reference : String} :
    referenceFaults r owner reference = [] ↔ r.contains reference = true := by
  unfold referenceFaults
  by_cases h : r.contains reference = true <;> simp [h]

theorem fieldFaults_eq_nil_iff {names : List String} {f : Field} :
    fieldFaults r id names f = [] ↔
      r.contains f.typeId = true ∧ ∀ count, f.count = some (.sibling count) → count ∈ names := by
  unfold fieldFaults
  rw [List.append_eq_nil_iff, referenceFaults_eq_nil_iff]
  rcases hc : f.count with _ | n | count
  · simp
  · simp
  · by_cases hm : count ∈ names <;> simp [hm]

theorem fieldListFaults_eq_nil_iff {fields : List Field} :
    fieldListFaults r id fields = [] ↔
      (∀ t ∈ fields.map Field.typeId, r.contains t = true) ∧
        ∀ f ∈ fields, ∀ count, f.count = some (.sibling count) →
          ∃ g ∈ fields, g.name.display = count := by
  unfold fieldListFaults
  simp only [List.flatMap_eq_nil_iff, fieldFaults_eq_nil_iff, List.mem_map]
  constructor
  · intro h
    refine ⟨?_, fun f hf => (h f hf).2⟩
    rintro t ⟨f, hf, rfl⟩
    exact (h f hf).1
  · rintro ⟨ht, hc⟩ f hf
    exact ⟨ht _ ⟨f, hf, rfl⟩, hc f hf⟩

theorem signatureFaults_eq_nil_iff {s : Signature} :
    signatureFaults r id s = [] ↔
      (∀ t ∈ s.references, r.contains t = true) ∧
        ∀ f ∈ s.params, ∀ count, f.count = some (.sibling count) →
          ∃ g ∈ s.params, g.name.display = count := by
  unfold signatureFaults Signature.references
  rw [List.append_eq_nil_iff, fieldListFaults_eq_nil_iff]
  rcases s.result with _ | t
  · simp
  · simp only [referenceFaults_eq_nil_iff, List.mem_append, Option.toList_some, List.mem_singleton]
    constructor
    · rintro ⟨⟨hp, hc⟩, ht⟩
      refine ⟨?_, hc⟩
      rintro u (hu | rfl)
      · exact hp u hu
      · exact ht
    · rintro ⟨hr, hc⟩
      exact ⟨⟨fun u hu => hr u (Or.inl hu), hc⟩, hr t (Or.inr rfl)⟩

/-- No case repeats one before it exactly if all displayed names differ. -/
theorem caseFaults_eq_nil_iff {seen : List String} {cases : List Case} :
    caseFaults id seen cases = [] ↔
      (cases.map (·.name.display)).Nodup ∧ ∀ c ∈ cases, c.name.display ∉ seen := by
  induction cases generalizing seen with
  | nil => simp [caseFaults]
  | cons c cs ih =>
    unfold caseFaults
    rw [List.append_eq_nil_iff, ih, List.map_cons, List.nodup_cons]
    simp only [List.mem_cons, not_or, forall_eq_or_imp, List.mem_map, not_exists, not_and]
    -- a name seen before is a fault; a new one joins those that the later cases must avoid
    by_cases hs : c.name.display ∈ seen
    · simp [hs]
    · simp only [hs, if_false, true_and, not_false_eq_true]
      constructor
      · rintro ⟨hn, h⟩
        exact ⟨⟨fun d hd => (h d hd).1, hn⟩, fun d hd => (h d hd).2⟩
      · rintro ⟨⟨hc, hn⟩, h⟩
        exact ⟨hn, fun d hd => ⟨hc d hd, h d hd⟩⟩

/-- No bit is too high or repeats one before it exactly if all fit and all indices differ. -/
theorem flagFaults_eq_nil_iff {seen : List Nat} {bits : List Flag} :
    flagFaults id seen bits = [] ↔
      (bits.map Flag.index).Nodup ∧ (∀ b ∈ bits, b.index ≤ 31) ∧ ∀ b ∈ bits, b.index ∉ seen := by
  induction bits generalizing seen with
  | nil => simp [flagFaults]
  | cons b bs ih =>
    unfold flagFaults
    rw [List.append_eq_nil_iff, ih, List.map_cons, List.nodup_cons]
    simp only [List.mem_cons, not_or, forall_eq_or_imp, List.mem_map, not_exists, not_and]
    -- the height of an index is checked first, and its repetition only if it fits
    by_cases hh : maxBitIndex < b.index
    · have : ¬ b.index ≤ 31 := by unfold maxBitIndex at hh; omega
      simp [hh, this]
    have hle : b.index ≤ 31 := by unfold maxBitIndex at hh; omega
    by_cases hs : b.index ∈ seen
    · simp [hh, hs]
    · simp only [hh, hs, hle, if_false, true_and, not_false_eq_true]
      constructor
      · rintro ⟨hn, hf, h⟩
        exact ⟨⟨fun d hd => (h d hd).1, hn⟩, hf, fun d hd => (h d hd).2⟩
      · rintro ⟨⟨hc, hn⟩, hf, h⟩
        exact ⟨hn, hf, fun d hd => ⟨hc d hd, h d hd⟩⟩

/-- **An entry has no faults exactly if it is consistent.** -/
theorem faults_eq_nil_iff {e : Entry} : e.faults r = [] ↔ e.Consistent r := by
  rcases e with ⟨id, spelling⟩ | ⟨id, name, shape⟩
  · simp [Entry.faults, Entry.Consistent]
  change _ ↔ shape.Consistent r
  rw [Shape.consistent_iff]
  -- each shape has the parts that its own search looks at; the other parts are empty
  unfold Entry.faults Shape.references Shape.fields Shape.cases Shape.bits
  cases shape with
  | typeAlias target => simp [referenceFaults_eq_nil_iff]
  | definition value => simp
  | handle => simp
  | enumeration cases => simp [caseFaults_eq_nil_iff]
  | bitField bits => simp [flagFaults_eq_nil_iff]
  | record fields => simp [fieldListFaults_eq_nil_iff]
  | union variants => simp [fieldListFaults_eq_nil_iff]
  | function signature deviceCommand => simp [signatureFaults_eq_nil_iff]
  | callback signature => simp [signatureFaults_eq_nil_iff]

/-- No declaration leads nowhere exactly if all declared ids are registered. -/
theorem undeclared_eq_nil_iff {api : Api} :
    api.undeclared = [] ↔
      ∀ m ∈ api.modules, ∀ id ∈ m.declares, api.registry.contains id = true := by
  unfold Api.undeclared
  simp only [List.flatMap_eq_nil_iff, referenceFaults_eq_nil_iff]

end Bindery
