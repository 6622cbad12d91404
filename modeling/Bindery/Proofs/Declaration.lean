import Bindery.Binding.Declaration
import Bindery.Proofs.Casing
import Bindery.Proofs.Projection

/-!
# Which entries can be declared

Declaring an entry fails only for what the entry says itself: a reference that is no type, or a
case that begins with a digit where the enumeration has no letter to put in front. Identifiers,
headings and documentation never fail.

* `Entry.Declarable`, `Registry.Declarable`: the entries that can be declared, and the ids of those.
* `caseIdent_decides`: a case has a spelling unless it begins with a digit.
* `declare_decides`: **the declaration of an entry succeeds exactly if it is declarable**.
-/

namespace Bindery

/-- The enumerations whose cases may begin with a digit, by the name that the description writes. -/
def Policy.RewritesDigits (enumeration : Name) : Prop :=
  enumeration.display ∈ digitLetters.map Prod.fst

instance (enumeration : Name) : Decidable (Policy.RewritesDigits enumeration) :=
  inferInstanceAs (Decidable (_ ∈ _))

/-- **A shape that can be declared**: it names types only, and its cases have a spelling. -/
structure Shape.Declarable (r : Registry) (name : Name) (s : Shape) : Prop where
  references : ∀ t ∈ s.references, r.Projectable t
  cases : ∀ c ∈ s.cases, startsWithDigit c.name.snake = true → Policy.RewritesDigits name

/-- An entry that can be declared; built-in types and callbacks need no declaration. -/
def Entry.Declarable (r : Registry) : Entry → Prop
  | .builtin _ _ => True
  | .declared _ _ (.callback _) => True
  | .declared _ name shape => shape.Declarable r name

/-- **An id whose entry can be declared.** -/
def Registry.Declarable (r : Registry) (id : String) : Prop :=
  ∃ e, r.find? id = some e ∧ e.Declarable r

theorem ident?_isSome {s : Shape} (hs : s.kind ≠ .callback) (name : Name) :
    ∃ ident, s.ident? name = some ident := by
  cases s with
  | callback signature => exact absurd rfl hs
  | _ => exact ⟨_, rfl⟩

theorem identBy_ok {s : Shape} (hs : s.kind ≠ .callback) (f : Name → Name) (id : String)
    (name : Name) : ∃ ident, (Entry.declared id name s).identBy f = .ok ident := by
  obtain ⟨ident, hi⟩ := ident?_isSome hs (f name)
  exact ⟨ident, by simp [Entry.identBy, hi]⟩

theorem ident?_of_identBy {id ident : String} {name : Name} {shape : Shape} {f : Name → Name}
    (h : (Entry.declared id name shape).identBy f = .ok ident) :
    shape.ident? (f name) = some ident := by
  simp only [Entry.identBy] at h
  rcases hsome : shape.ident? (f name) with _ | found
  · rw [hsome] at h
    cases h
  · rw [hsome] at h
    exact congrArg some (Except.ok.inj h)

theorem failures_exportScript {s : Shape} (hs : s.kind ≠ .callback) (id : String) (name : Name) :
    (Setting.exportScript (.declared id name s)).failures = [] := by
  obtain ⟨key, hk⟩ := identBy_ok hs Name.withoutPrefix id name
  obtain ⟨target, ht⟩ := identBy_ok hs (fun name => name) id name
  unfold Setting.exportScript Entry.shortIdent Entry.declaredIdent
  rw [hk, ht]
  rfl

namespace Setting

variable {s : Setting} {id : String} {name : Name} {shape : Shape}

/-- An export is a registration or a failure. -/
theorem collect_exportScript {α : Type} {part? : Step → Option α}
    (hr : ∀ f, part? (.register f) = none) (hf : ∀ err, part? (.fail err) = none) (e : Entry) :
    (exportScript e).collect part? = [] := by
  unfold exportScript
  split <;> simp [hr, hf]

/-- Documentation consists of comments and of reports on its markers. -/
theorem remarks_docLine (sign text : String) : (s.docLine sign text).Remarks := by
  unfold docLine
  refine Script.Remarks.append (fun step hstep => ?_) (Script.remarks_comment _)
  obtain ⟨marker, -, rfl⟩ := List.mem_map.1 hstep
  exact Or.inr ⟨_, rfl⟩

theorem remarks_moduleDoc : s.moduleDoc.Remarks := by
  unfold moduleDoc
  split
  · exact Script.Remarks.flatMap fun line _ => remarks_docLine _ line
  · exact Script.remarks_nil

theorem remarks_markScript (e : Entry) : (s.markScript e).Remarks := by
  unfold markScript
  split
  · exact Script.remarks_comment _
  · exact Script.remarks_nil

theorem remarks_headingScript (hs : shape.kind ≠ .callback) :
    (s.headingScript (.declared id name shape)).Remarks := by
  unfold headingScript
  split
  · obtain ⟨ident, hi⟩ := identBy_ok hs (fun name => name) id name
    unfold heading Entry.heading Entry.declaredIdent
    rw [hi]
    exact (Script.remarks_comment _).append
      (Script.Remarks.flatMap fun line _ => remarks_docLine _ line)
  · exact Script.remarks_nil

theorem remarks_memberScript (id member : String) : (s.memberScript id member).Remarks := by
  unfold memberScript memberLine
  split
  · split
    · exact remarks_docLine _ _
    · exact Script.remarks_nil
  · exact Script.remarks_nil

theorem remarks_parameterScript (id : String) (params : List Field) :
    (s.parameterScript id params).Remarks := by
  unfold parameterScript
  split
  · refine Script.Remarks.append ?_ (Script.Remarks.flatMap fun p _ => ?_)
    · exact (Script.remarks_comment _).append (Script.remarks_comment _)
    · unfold parameterLine
      split
      · exact remarks_docLine _ _
      · exact Script.remarks_nil
  · exact Script.remarks_nil

@[simp] theorem failures_moduleDoc : s.moduleDoc.failures = [] :=
  remarks_moduleDoc.failures_eq_nil

@[simp] theorem failures_markScript (e : Entry) : (s.markScript e).failures = [] :=
  (remarks_markScript e).failures_eq_nil

theorem failures_headingScript (hs : shape.kind ≠ .callback) :
    (s.headingScript (.declared id name shape)).failures = [] :=
  (remarks_headingScript hs).failures_eq_nil

@[simp] theorem failures_memberScript (id member : String) :
    (s.memberScript id member).failures = [] :=
  (remarks_memberScript id member).failures_eq_nil

@[simp] theorem failures_parameterScript (id : String) (params : List Field) :
    (s.parameterScript id params).failures = [] :=
  (remarks_parameterScript id params).failures_eq_nil

end Setting

theorem digitLetter?_isSome_iff {name : Name} :
    (∃ letter, Policy.digitLetter? name = some letter) ↔ Policy.RewritesDigits name := by
  unfold Policy.digitLetter? Policy.RewritesDigits
  rw [← Option.isSome_iff_exists, Option.isSome_map, List.find?_isSome, List.mem_map]
  simp only [beq_iff_eq]

/-- A case has a spelling unless it begins with a digit that its enumeration does not rewrite. -/
theorem caseIdent_decides (id : String) (enumeration case : Name) :
    Decides (caseIdent id enumeration case)
      (startsWithDigit case.snake = true → Policy.RewritesDigits enumeration) := by
  unfold caseIdent
  rw [startsWithDigit_screaming]
  by_cases hd : startsWithDigit case.snake = true
  · rw [if_pos hd]
    rcases hl : Policy.digitLetter? enumeration with _ | letter
    · refine .error trivial fun h => ?_
      obtain ⟨letter, hl'⟩ := digitLetter?_isSome_iff.2 (h hd)
      rw [hl] at hl'
      cases hl'
    · exact .ok fun _ => digitLetter?_isSome_iff.1 ⟨letter, hl⟩
  · rw [if_neg hd]
    exact .ok fun h => absurd h hd

namespace Setting

variable {s : Setting} {id : String} {name : Name}

theorem caseScript_decides (c : Case) :
    (s.caseScript id name c).Decides
      (startsWithDigit c.name.snake = true → Policy.RewritesDigits name) := by
  unfold caseScript
  generalize hx : caseIdent id name c.name = x
  have h := caseIdent_decides id name c.name
  rw [hx] at h
  cases h with
  | ok hp => exact (Script.decides_true (by simp)).congr ⟨fun _ => hp, fun _ => trivial⟩
  | @error err _ hs hp =>
    refine ⟨⟨fun hn => (by cases hn), fun hq => absurd hq hp⟩, fun e he => ?_⟩
    obtain rfl : e = err := by simpa using he
    exact hs

/-- A bit field is always written. -/
theorem failures_bitField (id : String) (name : Name) (bits : List Flag) :
    (s.declare (.declared id name (.bitField bits))).failures = [] := by
  have hk : (Shape.bitField bits).kind ≠ .callback := by simp [Shape.kind]
  simp [declare, bitFieldScript, flagScript, failures_headingScript hk, failures_exportScript hk]

theorem enumerationScript_decides (cases : List Case) :
    (s.enumerationScript (.declared id name (.enumeration cases)) name cases).Decides
      (∀ c ∈ cases, startsWithDigit c.name.snake = true → Policy.RewritesDigits name) := by
  have hk : (Shape.enumeration cases).kind ≠ .callback := by simp [Shape.kind]
  have h := Script.decides_flatMap (f := s.caseScript id name) fun c (_ : c ∈ cases) =>
    caseScript_decides c
  unfold enumerationScript
  refine (((Script.decides_true ?_).append h).append (Script.decides_true rfl)).congr ?_
  · simp [failures_headingScript hk, failures_exportScript hk]
  · simp

variable (hr : s.registry.Closed) (hu : s.registry.Unfolds)
include hr hu

theorem fieldLine_decides {f : Field} (hf : s.registry.contains f.typeId = true) :
    Decides (s.registry.fieldLine f) (s.registry.Projectable f.typeId) :=
  fieldText_decides (Registry.typeRef_decides hr hu hf)

theorem fieldScript_decides {f : Field} (hf : s.registry.contains f.typeId = true) :
    (s.fieldScript id f).Decides (s.registry.Projectable f.typeId) := by
  unfold fieldScript
  have hm := Script.decides_true (failures_memberScript (s := s) id f.name.display)
  exact (hm.append (Script.decides_attempt (fieldLine_decides hr hu hf))).congr (by simp)

theorem paramScript_decides {p : Field} (hp : s.registry.contains p.typeId = true) :
    (s.paramScript p).Decides (s.registry.Projectable p.typeId) :=
  Script.decides_attempt (fieldLine_decides hr hu hp)

theorem recordScript_decides {shape : Shape} (hs : shape.kind ≠ .callback) (keyword ident : String)
    {fields : List Field} (hf : ∀ t ∈ fields.map Field.typeId, s.registry.contains t = true) :
    (s.recordScript (.declared id name shape) keyword ident fields).Decides
      (∀ t ∈ fields.map Field.typeId, s.registry.Projectable t) := by
  have h := Script.decides_flatMap (f := s.fieldScript id)
    fun f hmem => fieldScript_decides hr hu (hf _ (List.mem_map_of_mem hmem))
  unfold recordScript
  refine (((Script.decides_true ?_).append h).append (Script.decides_true rfl)).congr ?_
  · simp [failures_headingScript hs]
  · simp

theorem aliasScript_decides {target : String} (ht : s.registry.contains target = true) :
    (s.aliasScript (.declared id name (.typeAlias target)) name target).Decides
      (s.registry.Projectable target) := by
  have hk : (Shape.typeAlias target).kind ≠ .callback := by simp [Shape.kind]
  obtain ⟨t, hfound, rfl⟩ := Registry.find?_of_contains ht
  have htype := Registry.typeName_decides hr hu hfound
  unfold aliasScript Registry.resolve
  rw [hfound]
  refine ((Script.decides_true ?_).append ((Script.decides_true ?_).append
    (Script.decides_attempt htype))).congr ?_
  · simp [failures_headingScript hk]
  · -- the name of a handle gets no short name
    split
    · rfl
    · exact failures_exportScript hk id name
  · simp

theorem functionScript_decides {signature : Signature} {deviceCommand : Bool}
    (hs : ∀ t ∈ signature.references, s.registry.contains t = true) :
    (s.functionScript (.declared id name (.function signature deviceCommand)) name
      signature).Decides (∀ t ∈ signature.references, s.registry.Projectable t) := by
  have hk : (Shape.function signature deviceCommand).kind ≠ .callback := by simp [Shape.kind]
  have hp := Script.decides_flatMap (f := s.paramScript) fun p hmem =>
    paramScript_decides hr hu (hs p.typeId (List.mem_append_left _ (List.mem_map_of_mem hmem)))
  have hres : Decides (s.registry.resultType signature.result) _ :=
    Registry.resultType_decides hr hu fun t ht => hs t (List.mem_append_right _ ht)
  unfold functionScript
  refine ((((Script.decides_true ?_).append hp).append (Script.decides_attempt hres)).append
    (Script.decides_true rfl)).congr ?_
  · simp [failures_headingScript hk, failures_exportScript hk]
  · simp [Signature.references, or_imp, forall_and]

/-- **The declaration of an entry succeeds exactly if it is declarable.** -/
theorem declare_decides {e : Entry} (he : e ∈ s.registry.entries) :
    (s.declare e).Decides (e.Declarable s.registry) := by
  rcases e with ⟨id, spelling⟩ | ⟨id, name, shape⟩
  · exact Script.decides_true rfl
  have hc := hr _ he id name shape rfl
  by_cases hk : shape.kind = .callback
  · cases shape with
    | callback signature => exact Script.decides_true rfl
    | _ => simp [Shape.kind] at hk
  -- a shape without cases is declarable as soon as all it names are types
  have plain : shape.cases = [] →
      ((∀ t ∈ shape.references, s.registry.Projectable t) ↔
        (Entry.declared id name shape).Declarable s.registry) := by
    intro hcases
    have hd : (Entry.declared id name shape).Declarable s.registry ↔
        shape.Declarable s.registry name := by
      cases shape with
      | callback signature => exact absurd rfl hk
      | _ => rfl
    rw [hd]
    exact ⟨fun h => ⟨h, by simp [hcases]⟩, fun h => h.references⟩
  cases shape with
  | typeAlias target =>
    exact (aliasScript_decides hr hu (hc target (by simp [Shape.references]))).congr
      (.trans (by simp [Shape.references]) (plain rfl))
  | definition value =>
    refine (Script.decides_true ?_).congr (.trans (by simp [Shape.references]) (plain rfl))
    simp [declare, definitionScript, failures_headingScript hk, failures_exportScript hk]
  | handle =>
    refine (Script.decides_true ?_).congr (.trans (by simp [Shape.references]) (plain rfl))
    simp [declare, handleScript, failures_headingScript hk]
  | enumeration cases =>
    refine (enumerationScript_decides cases).congr ?_
    exact ⟨fun h => ⟨by simp [Shape.references], h⟩, fun h => h.cases⟩
  | bitField bits =>
    exact (Script.decides_true (failures_bitField id name bits)).congr
      (.trans (by simp [Shape.references]) (plain rfl))
  | record fields =>
    refine ((Script.decides_true ?_).append
      (recordScript_decides hr hu hk "struct" name.typeIdent hc)).congr
        (.trans (by simp [Shape.references]) (plain rfl))
    split
    · exact failures_exportScript hk id name
    · rfl
  | union variants =>
    exact ((Script.decides_true (failures_exportScript hk id name)).append
      (recordScript_decides hr hu hk "union" name.typeIdent hc)).congr
        (.trans (by simp [Shape.references]) (plain rfl))
  | function signature deviceCommand =>
    exact (functionScript_decides hr hu hc).congr (plain rfl)
  | callback signature => exact absurd rfl hk

end Setting

end Bindery
