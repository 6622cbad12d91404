import Bindery.Proofs.Inlined

/-!
# The lines of members

A declaration has one line of code for each of its members, in their order. Where members have
documentation, it stands in front of their lines; that of parameters stands in front of the
function.

* `fieldType`: the type that a field is written with.
* `typeName_callback`: the parameters and the result in the type of a callback.
* `WrittenMember`, `Shape.Writes`: members as they are written, with their lines.
* `declare_members`: **the members of a declaration with the documentation in front of each**.
* `code_function`, `code_members`: **the code of a declaration has the lines of its members**.
-/

namespace Bindery

section Types

variable {typeRef : String → Except BindingError String} {f : Field}

/-- The type that a field is written with. Indirection comes before the number of elements. -/
def fieldType (typeRef : String → Except BindingError String) (f : Field) :
    Except BindingError String :=
  (typeRef f.typeId).map fun type =>
    if f.isPointer then "*" ++ (if f.byMut then "mut" else "const") ++ " " ++ type
    else
      match f.fixedCount with
      | some n => "[" ++ type ++ "; " ++ toString n ++ "]"
      | none => type

/-- The name of a field, as it is written, and a type. -/
def Field.text (f : Field) (type : String) : String :=
  Policy.fieldName f.name.display ++ ": " ++ type

/-- A field is written as its name and its type. -/
theorem fieldText_eq : fieldText typeRef f = (fieldType typeRef f).map f.text := by
  unfold fieldText fieldType
  cases typeRef f.typeId with
  | error err => rfl
  | ok type =>
    rcases f.fixedCount with _ | n <;>
      simp only [Except.map, Field.text, String.append_assoc] <;> split <;> rfl

/-- Fields are written one by one. -/
theorem exists_types_of_fieldTexts {fields : List Field} {texts : List String}
    (h : fieldTexts typeRef fields = .ok texts) :
    ∃ types, List.Forall₂ (fun f type => fieldType typeRef f = .ok type) fields types ∧
      texts = List.zipWith Field.text fields types := by
  induction fields generalizing texts with
  | nil =>
    obtain rfl := Except.ok.inj h
    exact ⟨[], .nil, rfl⟩
  | cons f fields ih =>
    obtain ⟨t, ht, h⟩ := bind_eq_ok.1 h
    obtain ⟨ts, hts, h⟩ := bind_eq_ok.1 h
    obtain rfl := Except.ok.inj h
    rw [fieldText_eq] at ht
    obtain ⟨type, htype, rfl⟩ := map_eq_ok.1 ht
    obtain ⟨types, htypes, rfl⟩ := ih hts
    exact ⟨type :: types, .cons htype htypes, rfl⟩

-- readings of references that agree where the first one has a type
variable {typeRef' : String → Except BindingError String}
  (h : ∀ id type, typeRef id = .ok type → typeRef' id = .ok type)
include h

theorem fieldTexts_mono {fields : List Field} {texts : List String}
    (hf : fieldTexts typeRef fields = .ok texts) : fieldTexts typeRef' fields = .ok texts := by
  induction fields generalizing texts with
  | nil => exact hf
  | cons f fields ih =>
    obtain ⟨t, ht, hf⟩ := bind_eq_ok.1 hf
    obtain ⟨ts, hts, hf⟩ := bind_eq_ok.1 hf
    obtain ⟨inner, hinner, hmap⟩ := map_eq_ok.1 ht
    have ht' : fieldText typeRef' f = .ok t := map_eq_ok.2 ⟨inner, h _ _ hinner, hmap⟩
    exact bind_eq_ok.2 ⟨t, ht', bind_eq_ok.2 ⟨ts, ih hts, hf⟩⟩

theorem signatureText_mono {s : Signature} {text : String}
    (hs : signatureText typeRef s = .ok text) : signatureText typeRef' s = .ok text := by
  obtain ⟨params, hparams, hs⟩ := bind_eq_ok.1 hs
  refine bind_eq_ok.2 ⟨params, fieldTexts_mono h hparams, ?_⟩
  rcases s with ⟨fields, _ | t⟩
  · exact hs
  · obtain ⟨result, hresult, hs⟩ := bind_eq_ok.1 hs
    obtain ⟨type, htype, hmap⟩ := map_eq_ok.1 hresult
    exact bind_eq_ok.2 ⟨result, map_eq_ok.2 ⟨type, h _ _ htype, hmap⟩, hs⟩

end Types

namespace Registry

variable {r : Registry}

/-- A type that is written is written alike inside fewer callbacks. -/
theorem typeWithin_mono {fuel fuel' : ℕ} {path path' : List String} {e : Entry} {type : String}
    (hfuel : fuel ≤ fuel') (hpath : path' ⊆ path) (h : r.typeWithin fuel path e = .ok type) :
    r.typeWithin fuel' path' e = .ok type := by
  induction fuel generalizing fuel' path path' e type with
  | zero =>
    cases e with
    | builtin id spelling => simpa only [typeWithin] using h
    | declared id name shape =>
      cases shape with
      | callback s => simp [typeWithin] at h
      | _ => simpa only [typeWithin] using h
  | succ fuel ih =>
    obtain ⟨fuel', rfl⟩ : ∃ n, fuel' = n + 1 := ⟨fuel' - 1, by omega⟩
    cases e with
    | builtin id spelling => simpa only [typeWithin] using h
    | declared id name shape =>
      cases shape with
      | callback s =>
        rw [typeWithin] at h ⊢
        split at h
        · cases h
        rename_i hid
        rw [if_neg fun hmem => hid (hpath hmem)]
        refine signatureText_mono (fun t inner ht => ?_) h
        split at ht
        · exact ih (by omega) (List.cons_subset_cons id hpath) ht
        · cases ht
      | _ => simpa only [typeWithin] using h

/-- **The type of a callback** has its parameters in order, and the type of its result. -/
theorem typeName_callback {id : String} {name : Name} {s : Signature} {text : String}
    (h : r.typeName (.declared id name (.callback s)) = .ok text) :
    ∃ types result, List.Forall₂ (fun p type => fieldType r.typeRef p = .ok type) s.params types ∧
      (∀ t, s.result = some t → ∃ type, r.typeRef t = .ok type ∧ result = " -> " ++ type) ∧
      text = "Option<unsafe extern \"C\" fn(" ++
        ", ".intercalate (List.zipWith Field.text s.params types) ++ ")" ++ result ++ ">" := by
  rw [typeName, typeWithin, if_neg List.not_mem_nil] at h
  have hsignature : signatureText r.typeRef s = .ok text := by
    refine signatureText_mono (fun t type ht => ?_) h
    unfold typeRef resolve
    split at ht
    · exact typeWithin_mono (Nat.le_succ _) (List.nil_subset _) ht
    · cases ht
  obtain ⟨params, result, hparams, hresult, rfl⟩ := signatureText_eq_ok hsignature
  obtain ⟨types, htypes, rfl⟩ := exists_types_of_fieldTexts hparams
  exact ⟨types, result, htypes, hresult, rfl⟩

end Registry

/-- A member in a declaration: its name, the identifier that is written for it, and its line. -/
structure WrittenMember where
  name : Name
  ident : String
  line : String

/-- A case under an identifier. -/
def Case.written (c : Case) (ident : String) : WrittenMember :=
  ⟨c.name, ident, c.line ident⟩

/-- A bit under its identifier. -/
def Flag.written (b : Flag) : WrittenMember :=
  ⟨b.name, b.name.bitIdent, b.line b.name.bitIdent⟩

/-- A field behind what introduces it, with a type. -/
def Field.written (lead : String) (f : Field) (type : String) : WrittenMember :=
  ⟨f.name, Policy.fieldName f.name.display, lead ++ f.text type ++ ","⟩

/-- What introduces the fields of a shape. -/
def Shape.fieldLead? : Shape → Option String
  | .record _ => some "  pub "
  | .union _ => some "  pub "
  | .function _ _ => some "  "
  | _ => none

/-- **The members of a shape as they are written**, in their order. -/
inductive Shape.Writes (r : Registry) (id : String) (full : Name) :
    Shape → List WrittenMember → Prop
  | cases {cases : List Case} {idents : List String}
    (h : List.Forall₂ (fun c ident => caseIdent id full c.name = .ok ident) cases idents) :
    Writes r id full (.enumeration cases) (List.zipWith Case.written cases idents)
  | bits (bits : List Flag) : Writes r id full (.bitField bits) (bits.map Flag.written)
  | fields {shape : Shape} {lead : String} {types : List String}
    (hlead : shape.fieldLead? = some lead)
    (h : List.Forall₂ (fun f type => fieldType r.typeRef f = .ok type) shape.fields types) :
    Writes r id full shape (List.zipWith (Field.written lead) shape.fields types)
  | none {shape : Shape} (h : shape.memberNames = []) : Writes r id full shape []

theorem map_zipWith_of_forall₂ {α β γ δ : Type} {R : α → β → Prop} {as : List α} {bs : List β}
    (h : List.Forall₂ R as bs) {w : α → β → γ} {g : γ → δ} {k : α → δ}
    (hk : ∀ a b, g (w a b) = k a) : (List.zipWith w as bs).map g = as.map k := by
  induction h with
  | nil => rfl
  | cons _ _ ih => rw [List.zipWith_cons_cons, List.map_cons, List.map_cons, hk, ih]

theorem exists_of_mem_zipWith {α β γ : Type} {R : α → β → Prop} {as : List α} {bs : List β}
    (h : List.Forall₂ R as bs) {w : α → β → γ} {c : γ} (hc : c ∈ List.zipWith w as bs) :
    ∃ a ∈ as, ∃ b, R a b ∧ w a b = c := by
  induction h with
  | nil => cases hc
  | @cons a b as bs hab _ ih =>
    rcases List.mem_cons.1 hc with rfl | hc
    · exact ⟨a, .head _, b, hab, rfl⟩
    · obtain ⟨a', ha', hrest⟩ := ih hc
      exact ⟨a', .tail _ ha', hrest⟩

/-- The members are written in their order. -/
theorem Shape.Writes.names {r : Registry} {id : String} {full : Name} {shape : Shape}
    {members : List WrittenMember} (h : shape.Writes r id full members) :
    members.map WrittenMember.name = shape.memberNames := by
  cases h with
  | cases h =>
    rw [map_zipWith_of_forall₂ h (w := Case.written) (k := Case.name) fun _ _ => rfl]
    simp [memberNames, Shape.cases, Shape.bits, Shape.fields]
  | bits bits =>
    simp [memberNames, Shape.cases, Shape.bits, Shape.fields, Flag.written]
  | @fields _ lead _ hlead h =>
    rw [map_zipWith_of_forall₂ h (w := Field.written lead) (k := Field.name) fun _ _ => rfl]
    cases shape <;> simp [fieldLead?] at hlead <;>
      simp [memberNames, Shape.cases, Shape.bits]
  | none h => exact h.symm

/-- Steps for each of some things are steps for what is written for them. -/
theorem exists_written {α β : Type} {l : List α} {f : α → Script} {g : WrittenMember → Script}
    {R : α → β → Prop} {w : α → β → WrittenMember}
    (h : ∀ a, (f a).failures = [] → ∃ b, R a b ∧ f a = g (w a b))
    (hf : Script.failures (l.flatMap f) = []) :
    ∃ bs, List.Forall₂ R l bs ∧ l.flatMap f = (List.zipWith w l bs).flatMap g := by
  induction l with
  | nil => exact ⟨[], .nil, rfl⟩
  | cons a l ih =>
    simp only [List.flatMap_cons, Script.collect_append, List.append_eq_nil_iff] at hf
    obtain ⟨b, hb, hone⟩ := h a hf.1
    obtain ⟨bs, hbs, hrest⟩ := ih hf.2
    refine ⟨b :: bs, .cons hb hbs, ?_⟩
    rw [List.flatMap_cons, hone, hrest]
    rfl

namespace Setting

variable {s : Setting} {id : String} {full : Name} {shape : Shape}

/-- **The steps of a member**: its documentation, and its line behind that. -/
def memberSteps (s : Setting) (id : String) (m : WrittenMember) : Script :=
  s.memberScript id m.name.display ++ [.code m.line]

theorem code_memberSteps (members : List WrittenMember) :
    Script.code (members.flatMap (s.memberSteps id)) = members.map WrittenMember.line := by
  induction members with
  | nil => rfl
  | cons m members ih =>
    simp only [List.flatMap_cons, Script.collect_append, ih, memberSteps, code_memberScript]
    rfl

theorem caseScript_eq {c : Case} (h : (s.caseScript id full c).failures = []) :
    ∃ ident, caseIdent id full c.name = .ok ident ∧
      s.caseScript id full c = s.memberSteps id (c.written ident) := by
  rcases hc : caseIdent id full c.name with err | ident
  · simp [caseScript, hc] at h
  · refine ⟨ident, rfl, ?_⟩
    unfold caseScript
    rw [hc]
    rfl

/-- A field that is written has a type. -/
theorem attempt_fieldLine {f : Field} {lead : String}
    (h : (Script.attempt (s.registry.fieldLine f) fun text => lead ++ text ++ ",").failures = []) :
    ∃ type, fieldType s.registry.typeRef f = .ok type ∧
      (Script.attempt (s.registry.fieldLine f) fun text => lead ++ text ++ ",") =
        [.code (f.written lead type).line] := by
  unfold Registry.fieldLine at h ⊢
  rw [fieldText_eq] at h ⊢
  rcases ht : fieldType s.registry.typeRef f with err | type
  · rw [ht] at h
    cases h
  · exact ⟨type, rfl, rfl⟩

theorem fieldScript_eq {f : Field} (h : (s.fieldScript id f).failures = []) :
    ∃ type, fieldType s.registry.typeRef f = .ok type ∧
      s.fieldScript id f = s.memberSteps id (f.written "  pub " type) := by
  simp only [fieldScript, Script.collect_append, List.append_eq_nil_iff] at h
  obtain ⟨type, htype, hone⟩ := attempt_fieldLine h.2
  refine ⟨type, htype, ?_⟩
  rw [fieldScript, hone]
  rfl

/-- The fields of a record or union, behind other steps. -/
theorem recordScript_members {before : Script} {e : Entry} {keyword ident : String}
    {fields : List Field} (h : (before ++ s.recordScript e keyword ident fields).failures = []) :
    ∃ types front back,
      List.Forall₂ (fun f type => fieldType s.registry.typeRef f = .ok type) fields types ∧
      before ++ s.recordScript e keyword ident fields =
        front ++ (List.zipWith (Field.written "  pub ") fields types).flatMap
          (s.memberSteps e.id) ++ back := by
  have hparts : ∃ front back, s.recordScript e keyword ident fields =
      front ++ fields.flatMap (s.fieldScript e.id) ++ back := ⟨_, _, rfl⟩
  obtain ⟨front, back, hparts⟩ := hparts
  rw [hparts] at h ⊢
  simp only [Script.collect_append, List.append_eq_nil_iff] at h
  obtain ⟨types, htypes, hsteps⟩ := exists_written (f := s.fieldScript e.id)
    (w := Field.written "  pub ") (fun f => fieldScript_eq) h.2.1.2
  refine ⟨types, before ++ front, back, htypes, ?_⟩
  rw [hsteps, List.append_assoc front, List.append_assoc before, List.append_assoc before,
    List.append_assoc front]

/-- **The members of a declaration**, each with its documentation in front of its line. Parameters
are documented in front of their function. -/
theorem declare_members (hk : shape.kind ≠ .callback) (hfunction : shape.kind ≠ .function)
    (h : (s.declare (.declared id full shape)).failures = []) :
    ∃ members front back, shape.Writes s.registry id full members ∧
      s.declare (.declared id full shape) =
        front ++ members.flatMap (s.memberSteps id) ++ back := by
  cases shape with
  | enumeration cases =>
    simp only [declare, enumerationScript, Script.collect_append, List.append_eq_nil_iff] at h
    obtain ⟨idents, hidents, hsteps⟩ := exists_written (f := s.caseScript id full)
      (w := Case.written) (fun c => caseScript_eq) h.1.2
    exact ⟨_, _, _, .cases hidents, congrArg (_ ++ · ++ _) hsteps⟩
  | bitField bits =>
    have hsteps : bits.flatMap (s.flagScript id) =
        (bits.map Flag.written).flatMap (s.memberSteps id) := by
      rw [List.flatMap_map]
      rfl
    exact ⟨_, _, _, .bits bits, congrArg (_ ++ · ++ _) hsteps⟩
  | record fields =>
    obtain ⟨types, front, back, htypes, hsteps⟩ := recordScript_members h
    exact ⟨_, front, back, .fields rfl htypes, hsteps⟩
  | union variants =>
    obtain ⟨types, front, back, htypes, hsteps⟩ := recordScript_members h
    exact ⟨_, front, back, .fields rfl htypes, hsteps⟩
  | function signature deviceCommand => exact absurd rfl hfunction
  | callback signature => exact absurd rfl hk
  | typeAlias | definition | handle =>
    exact ⟨[], s.declare _, [], .none rfl,
      by rw [List.flatMap_nil, List.append_nil, List.append_nil]⟩

/-- **The code of a function**: its parameters in order, and the type of its result. -/
theorem code_function {signature : Signature} {deviceCommand : Bool}
    (h : (s.declare (.declared id full (.function signature deviceCommand))).failures = []) :
    ∃ types result,
      List.Forall₂ (fun p type => fieldType s.registry.typeRef p = .ok type) signature.params
        types ∧
      s.registry.resultType signature.result = .ok result ∧
      (s.declare (.declared id full (.function signature deviceCommand))).code =
        ["#[link(name = \"" ++ s.config.linkName ++ "\")]", "unsafe extern \"C\" \x7b",
          "pub fn " ++ full.functionIdent ++ "("] ++
        (List.zipWith (Field.written "  ") signature.params types).map WrittenMember.line ++
        [") -> " ++ result ++ ";", "\x7d"] := by
  simp only [declare, functionScript, Script.collect_append, List.append_eq_nil_iff] at h
  obtain ⟨types, htypes, hsteps⟩ := exists_written (f := s.paramScript)
    (g := fun m => [.code m.line]) (w := Field.written "  ")
    (fun p hp => attempt_fieldLine hp) h.1.1.2
  rcases hresult : s.registry.resultType signature.result with err | result
  · simp [hresult, Script.attempt] at h
  refine ⟨types, result, htypes, rfl, ?_⟩
  have hheading : (s.headingScript (.declared id full (.function signature deviceCommand))).code =
      [] := (remarks_headingScript (by simp [Shape.kind])).code_eq_nil
  have hparams : Script.code (signature.params.flatMap s.paramScript) =
      (List.zipWith (Field.written "  ") signature.params types).map WrittenMember.line := by
    refine (congrArg Script.code hsteps).trans ((Script.collect_flatMap _ _ _).trans ?_)
    exact List.flatMap_pure_eq_map _ _
  simp only [declare, functionScript, Script.collect_append, hheading, code_exportScript,
    (remarks_markScript _).code_eq_nil, (remarks_parameterScript _ _).code_eq_nil, hparams,
    hresult, Script.attempt, List.append_assoc, List.nil_append]
  rfl

/-- **The code of a declaration has the lines of its members**, in order and next to one another. -/
theorem code_members (hk : shape.kind ≠ .callback)
    (h : (s.declare (.declared id full shape)).failures = []) :
    ∃ members front back, shape.Writes s.registry id full members ∧
      (s.declare (.declared id full shape)).code =
        front ++ members.map WrittenMember.line ++ back := by
  by_cases hfunction : shape.kind = .function
  · cases shape with
    | function signature deviceCommand =>
      obtain ⟨types, result, htypes, -, hcode⟩ := code_function h
      exact ⟨_, _, _, .fields rfl htypes, hcode⟩
    | _ => cases hfunction
  · obtain ⟨members, front, back, hmembers, hsteps⟩ := declare_members hk hfunction h
    refine ⟨members, front.code, back.code, hmembers, ?_⟩
    simp only [hsteps, Script.collect_append, code_memberSteps]

end Setting

end Bindery
