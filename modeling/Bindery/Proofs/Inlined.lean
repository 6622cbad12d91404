import Bindery.Proofs.Fit

/-!
# Fields inside types

A callback has no declaration: its type is written out wherever something refers to it, with its
parameters and, inside those, the callbacks that they refer to.

* `Occurs`: a text inside another one.
* `Registry.WritesOut`: the parameters that are written out for a reference.
* `Entry.Shows`: the fields and parameters in the declaration of an entry.
* `occurs_of_writesOut`: an array stands in each text that its parameter is written out in.
* `occurs_of_shows`: **an array that a declaration shows stands in each source with it**.
-/

namespace Bindery

/-- A text that stands inside another one. -/
def Occurs (piece text : String) : Prop :=
  piece.toList <:+: text.toList

instance (piece text : String) : Decidable (Occurs piece text) :=
  inferInstanceAs (Decidable (_ <:+: _))

/-- What a member of a list stands for is a part of what the list stands for. -/
theorem infix_flatMap {α β : Type} {l : List α} {a : α} (h : a ∈ l) (f : α → List β) :
    f a <:+: l.flatMap f :=
  List.infix_of_mem_flatten (List.mem_map_of_mem h)

namespace Occurs

variable {piece text more : String}

theorem refl (text : String) : Occurs text text :=
  List.infix_rfl

theorem trans (h : Occurs piece text) (h' : Occurs text more) : Occurs piece more :=
  List.IsInfix.trans h h'

theorem append_left (front : String) (h : Occurs piece text) : Occurs piece (front ++ text) := by
  unfold Occurs
  rw [String.toList_append]
  exact List.IsInfix.trans h (List.suffix_append _ _).isInfix

theorem append_right (back : String) (h : Occurs piece text) : Occurs piece (text ++ back) := by
  unfold Occurs
  rw [String.toList_append]
  exact List.IsInfix.trans h (List.prefix_append _ _).isInfix

theorem between (front text back : String) : Occurs text (front ++ text ++ back) :=
  ((refl text).append_left front).append_right back

theorem intercalate {sep : String} {texts : List String} (h : text ∈ texts) :
    Occurs text (sep.intercalate texts) := by
  induction texts with
  | nil => cases h
  | cons t ts ih =>
    cases ts with
    | nil =>
      obtain rfl := List.mem_singleton.1 h
      rw [String.intercalate_singleton]
      exact refl _
    | cons t' ts =>
      rw [String.intercalate_cons_cons]
      rcases List.mem_cons.1 h with rfl | h
      · exact ((refl _).append_right _).append_right _
      · exact (ih h).append_left _

theorem unlines {lines : List String} (h : text ∈ lines) : Occurs text (unlines lines) := by
  refine ((refl text).append_right "\n").trans ?_
  unfold Occurs Bindery.unlines
  rw [String.toList_join]
  exact infix_flatMap (List.mem_map_of_mem (f := (· ++ "\n")) h) String.toList

end Occurs

/-- Lines that stand in a source occur in it. -/
theorem StandsIn.occurs {lines : List String} {line source : String} (h : StandsIn lines source)
    (hline : line ∈ lines) : Occurs line source := by
  obtain ⟨all, rfl, hsub⟩ := h
  exact Occurs.unlines (hsub.subset hline)

/-- A field that is an array, with the type of its elements. -/
def Field.arrayText (f : Field) (type : String) (n : Nat) : String :=
  Policy.fieldName f.name.display ++ ": [" ++ type ++ "; " ++ toString n ++ "]"

/-- **A field that is written as an array.** One that is a pointer is written without its length. -/
structure Field.IsArray (f : Field) (n : Nat) : Prop where
  count : f.count = some (.fixed n)
  plain : f.isPointer = false

section Texts

variable {typeRef : String → Except BindingError String} {f : Field} {n : Nat} {text : String}

theorem fieldText_eq_ok (h : fieldText typeRef f = .ok text) :
    ∃ type, typeRef f.typeId = .ok type ∧ Occurs type text ∧
      (f.IsArray n → text = f.arrayText type n) := by
  unfold fieldText at h
  obtain ⟨type, htype, rfl⟩ := map_eq_ok.1 h
  refine ⟨type, htype, ?_, fun ha => ?_⟩
  · dsimp only
    split
    · exact (Occurs.refl _).append_left _
    · split
      · exact ((((Occurs.refl _).append_left _).append_right _).append_right _).append_right _
      · exact (Occurs.refl _).append_left _
  · have hfixed : f.fixedCount = some n := by simp [Field.fixedCount, ha.count]
    simp only [ha.plain, Bool.false_eq_true, if_false, hfixed]
    rfl

theorem mem_of_fieldTexts {fields : List Field} {texts : List String}
    (h : fieldTexts typeRef fields = .ok texts) (hf : f ∈ fields) :
    ∃ t ∈ texts, fieldText typeRef f = .ok t := by
  induction fields generalizing texts with
  | nil => cases hf
  | cons g gs ih =>
    obtain ⟨t, ht, h⟩ := bind_eq_ok.1 h
    obtain ⟨ts, hts, h⟩ := bind_eq_ok.1 h
    obtain rfl := Except.ok.inj h
    rcases List.mem_cons.1 hf with rfl | hf
    · exact ⟨t, .head _, ht⟩
    · obtain ⟨t', hmem, ht'⟩ := ih hts hf
      exact ⟨t', .tail _ hmem, ht'⟩

/-- The parts of the type of a function. -/
theorem signatureText_eq_ok {s : Signature} (h : signatureText typeRef s = .ok text) :
    ∃ params result, fieldTexts typeRef s.params = .ok params ∧
      (∀ t, s.result = some t → ∃ type, typeRef t = .ok type ∧ result = " -> " ++ type) ∧
      text =
        "Option<unsafe extern \"C\" fn(" ++ ", ".intercalate params ++ ")" ++ result ++ ">" := by
  obtain ⟨params, hparams, h⟩ := bind_eq_ok.1 h
  dsimp only at h
  split at h
  · rename_i t ht
    obtain ⟨result, hresult, h⟩ := bind_eq_ok.1 h
    obtain rfl := Except.ok.inj h
    obtain ⟨type, htype, rfl⟩ := map_eq_ok.1 hresult
    refine ⟨params, _, hparams, fun t' ht' => ?_, rfl⟩
    obtain rfl := Option.some.inj (ht.symm.trans ht')
    exact ⟨type, htype, rfl⟩
  · rename_i hnone
    obtain ⟨result, -, h⟩ := bind_eq_ok.1 h
    obtain rfl := Except.ok.inj h
    exact ⟨params, result, hparams, by simp [hnone], rfl⟩

/-- The type of a function contains its parameters. -/
theorem occurs_param {s : Signature} (h : signatureText typeRef s = .ok text) (hf : f ∈ s.params) :
    ∃ t, fieldText typeRef f = .ok t ∧ Occurs t text := by
  obtain ⟨params, result, hparams, -, rfl⟩ := signatureText_eq_ok h
  obtain ⟨t, hmem, ht⟩ := mem_of_fieldTexts hparams hf
  exact ⟨t, ht, ((((Occurs.intercalate hmem).append_left _).append_right _).append_right
    _).append_right _⟩

/-- The type of a function contains the types of its parameters and of its result. -/
theorem occurs_reference {s : Signature} (h : signatureText typeRef s = .ok text) {t : String}
    (ht : t ∈ s.references) : ∃ type, typeRef t = .ok type ∧ Occurs type text := by
  rcases List.mem_append.1 ht with ht | ht
  · obtain ⟨f, hf, rfl⟩ := List.mem_map.1 ht
    obtain ⟨line, hline, hocc⟩ := occurs_param h hf
    obtain ⟨type, htype, hin, -⟩ := fieldText_eq_ok (n := 0) hline
    exact ⟨type, htype, hin.trans hocc⟩
  · obtain ⟨params, result, -, hresult, rfl⟩ := signatureText_eq_ok h
    obtain ⟨type, htype, rfl⟩ := hresult t (by simpa using ht)
    exact ⟨type, htype, (((Occurs.refl _).append_left _).append_left _).append_right _⟩

end Texts

namespace Registry

variable {r : Registry}

/-- **The parameters that are written out for a reference**: those of the callback that it leads to,
and those that are written out for what this callback refers to. -/
inductive WritesOut (r : Registry) (f : Field) : String → Prop
  | param {id c : String} {name : Name} {s : Signature}
    (hc : r.find? c = some (.declared id name (.callback s))) (hf : f ∈ s.params) : WritesOut r f c
  | inner {id c t : String} {name : Name} {s : Signature}
    (hc : r.find? c = some (.declared id name (.callback s))) (ht : t ∈ s.references)
    (h : WritesOut r f t) : WritesOut r f c

/-- The type of a callback is that of its signature. -/
theorem signatureText_of_typeWithin {fuel : Nat} {path : List String} {id text : String}
    {name : Name} {s : Signature}
    (h : r.typeWithin fuel path (.declared id name (.callback s)) = .ok text) :
    ∃ typeRef, signatureText typeRef s = .ok text ∧ ∀ t type, typeRef t = .ok type →
      ∃ fuel path e, r.find? t = some e ∧ r.typeWithin fuel path e = .ok type := by
  cases fuel with
  | zero => cases h
  | succ fuel =>
    rw [typeWithin] at h
    split at h
    · cases h
    · refine ⟨_, h, fun t type ht => ?_⟩
      split at ht
      · rename_i e he
        exact ⟨fuel, _, e, he, ht⟩
      · cases ht

/-- **An array stands in each type that its parameter is written out in.** -/
theorem occurs_of_writesOut {f : Field} {n : Nat} (ha : f.IsArray n) {c : String}
    (hw : r.WritesOut f c) {fuel : Nat} {path : List String} {e : Entry} {text : String}
    (he : r.find? c = some e) (h : r.typeWithin fuel path e = .ok text) :
    ∃ type, Occurs (f.arrayText type n) text := by
  induction hw generalizing fuel path e text with
  | param hc hf =>
    obtain rfl := Option.some.inj (he.symm.trans hc)
    obtain ⟨typeRef, hsignature, -⟩ := signatureText_of_typeWithin h
    obtain ⟨t, ht, hocc⟩ := occurs_param hsignature hf
    obtain ⟨type, -, -, harray⟩ := fieldText_eq_ok ht
    exact ⟨type, harray ha ▸ hocc⟩
  | inner hc ht _ ih =>
    obtain rfl := Option.some.inj (he.symm.trans hc)
    obtain ⟨typeRef, hsignature, hdeeper⟩ := signatureText_of_typeWithin h
    obtain ⟨inner, hinner, hocc⟩ := occurs_reference hsignature ht
    obtain ⟨fuel', path', e', he', hwithin⟩ := hdeeper _ _ hinner
    obtain ⟨type, hin⟩ := ih he' hwithin
    exact ⟨type, hin.trans hocc⟩

theorem occurs_of_typeRef {f : Field} {n : Nat} (ha : f.IsArray n) {t text : String}
    (hw : r.WritesOut f t) (h : r.typeRef t = .ok text) :
    ∃ type, Occurs (f.arrayText type n) text := by
  unfold typeRef resolve at h
  split at h
  · rename_i e he
    exact occurs_of_writesOut ha hw he h
  · cases h

end Registry

theorem Script.code_of_attempt {text : Except BindingError String} {line : String → String}
    (h : (Script.attempt text line).failures = []) :
    ∃ t, text = .ok t ∧ Step.code (line t) ∈ Script.attempt text line := by
  cases text with
  | ok t => exact ⟨t, rfl, List.mem_singleton_self _⟩
  | error err => cases h

namespace Setting

variable {s : Setting} {id : String} {name : Name}

theorem code_of_fields {fields : List Field}
    (h : Script.failures (fields.flatMap (s.fieldScript id)) = []) {f : Field} (hf : f ∈ fields) :
    ∃ text, s.registry.fieldLine f = .ok text ∧
      Step.code ("  pub " ++ text ++ ",") ∈ fields.flatMap (s.fieldScript id) := by
  have hone := (Script.collect_flatMap_eq_nil_iff _).1 h f hf
  simp only [fieldScript, Script.collect_append, List.append_eq_nil_iff] at hone
  obtain ⟨text, htext, hmem⟩ := Script.code_of_attempt hone.2
  exact ⟨text, htext, List.mem_flatMap.2 ⟨f, hf, List.mem_append_right _ hmem⟩⟩

theorem code_of_params {params : List Field}
    (h : Script.failures (params.flatMap s.paramScript) = []) {p : Field} (hp : p ∈ params) :
    ∃ text, s.registry.fieldLine p = .ok text ∧
      Step.code ("  " ++ text ++ ",") ∈ params.flatMap s.paramScript := by
  have hone := (Script.collect_flatMap_eq_nil_iff _).1 h p hp
  obtain ⟨text, htext, hmem⟩ := Script.code_of_attempt hone
  exact ⟨text, htext, List.mem_flatMap.2 ⟨p, hp, hmem⟩⟩

/-- The code of a declaration contains a text. -/
def Contains (s : Setting) (e : Entry) (text : String) : Prop :=
  ∃ line, Step.code line ∈ s.declare e ∧ Occurs text line

theorem contains_field {shape : Shape} (hk : shape.kind ≠ .callback)
    (h : (s.declare (.declared id name shape)).failures = []) {f : Field} (hf : f ∈ shape.fields) :
    ∃ text, s.registry.fieldLine f = .ok text ∧
      s.Contains (.declared id name shape) text := by
  cases shape with
  | record fields =>
    simp only [declare, recordScript, Script.collect_append, List.append_eq_nil_iff] at h
    obtain ⟨text, htext, hmem⟩ := code_of_fields h.2.1.2 hf
    refine ⟨text, htext, _, ?_, .between "  pub " text ","⟩
    simp only [declare, recordScript, List.mem_append]
    exact .inr (.inl (.inr hmem))
  | union variants =>
    simp only [declare, recordScript, Script.collect_append, List.append_eq_nil_iff] at h
    obtain ⟨text, htext, hmem⟩ := code_of_fields h.2.1.2 hf
    refine ⟨text, htext, _, ?_, .between "  pub " text ","⟩
    simp only [declare, recordScript, List.mem_append]
    exact .inr (.inl (.inr hmem))
  | function signature deviceCommand =>
    simp only [declare, functionScript, Script.collect_append, List.append_eq_nil_iff] at h
    obtain ⟨text, htext, hmem⟩ := code_of_params h.1.1.2 hf
    refine ⟨text, htext, _, ?_, .between "  " text ","⟩
    simp only [declare, functionScript, List.mem_append]
    exact .inl (.inl (.inr hmem))
  | callback signature => exact absurd rfl hk
  | _ => cases hf

theorem contains_reference {shape : Shape} (hk : shape.kind ≠ .callback)
    (h : (s.declare (.declared id name shape)).failures = []) {t : String}
    (ht : t ∈ shape.references) : ∃ text, s.registry.typeRef t = .ok text ∧
      s.Contains (.declared id name shape) text := by
  -- the type of a field is inside the line of the field
  have hfields : t ∈ shape.fields.map Field.typeId → ∃ text, s.registry.typeRef t = .ok text ∧
      s.Contains (.declared id name shape) text := by
    intro hmem
    obtain ⟨f, hf, rfl⟩ := List.mem_map.1 hmem
    obtain ⟨text, htext, line, hline, hocc⟩ := contains_field hk h hf
    obtain ⟨type, htype, hin, -⟩ := fieldText_eq_ok (n := 0) htext
    exact ⟨type, htype, line, hline, hin.trans hocc⟩
  cases shape with
  | typeAlias target =>
    obtain rfl := List.mem_singleton.1 ht
    simp only [declare, aliasScript, Script.collect_append, List.append_eq_nil_iff] at h
    rcases hres : s.registry.resolve t with err | e
    · simp [hres] at h
    simp only [hres, Script.collect_append, List.append_eq_nil_iff] at h
    obtain ⟨text, htext, hmem⟩ := Script.code_of_attempt h.2.2
    have href : s.registry.typeRef t = .ok text := by
      rw [Registry.typeRef, hres]
      exact htext
    refine ⟨text, href, _, ?_, .between ("pub type " ++ name.typeIdent ++ " = ") text ";"⟩
    simp only [declare, aliasScript, hres, List.mem_append]
    exact .inr (.inr hmem)
  | record fields => exact hfields ht
  | union variants => exact hfields ht
  | function signature deviceCommand =>
    rcases List.mem_append.1 ht with ht | ht
    · exact hfields ht
    · simp only [declare, functionScript, Script.collect_append, List.append_eq_nil_iff] at h
      obtain ⟨text, htext, hmem⟩ := Script.code_of_attempt h.1.2
      have hresult : signature.result = some t := by simpa using ht
      rw [hresult] at htext
      have href : s.registry.typeRef t = .ok text := htext
      refine ⟨text, href, _, ?_, .between ") -> " text ";"⟩
      simp only [declare, functionScript, List.mem_append]
      exact .inl (.inr hmem)
  | callback signature => exact absurd rfl hk
  | _ => cases ht

end Setting

/-- **The fields and parameters in the declaration of an entry**: its own, and those that are
written out for what it refers to. A callback is not declared. -/
def Entry.Shows (r : Registry) (f : Field) : Entry → Prop
  | .builtin _ _ => False
  | .declared _ _ shape =>
    shape.kind ≠ .callback ∧ (f ∈ shape.fields ∨ ∃ t ∈ shape.references, r.WritesOut f t)

/-- **An array that a declaration shows stands in each source with the declaration.** -/
theorem occurs_of_shows {api : Api} {cfg : Config} {m : Module} {source : String} {e : Entry}
    (h : api.Emits cfg m source e) {f : Field} {n : Nat} (hs : e.Shows api.registry f)
    (ha : f.IsArray n) : ∃ type, Occurs (f.arrayText type n) source := by
  have hin : ∀ {text : String}, (api.settingOf cfg m).Contains e text → Occurs text source := by
    rintro text ⟨line, hline, hocc⟩
    exact hocc.trans (h.code.occurs (List.mem_filterMap.2 ⟨_, hline, rfl⟩))
  cases e with
  | builtin id spelling => exact hs.elim
  | declared id name shape =>
    obtain ⟨hk, hf | ⟨t, ht, hw⟩⟩ := hs
    · obtain ⟨text, htext, hcontains⟩ := Setting.contains_field hk h.sound hf
      obtain ⟨type, -, -, harray⟩ := fieldText_eq_ok htext
      exact ⟨type, harray ha ▸ hin hcontains⟩
    · obtain ⟨text, htext, hcontains⟩ := Setting.contains_reference hk h.sound ht
      obtain ⟨type, hocc⟩ := Registry.occurs_of_typeRef ha hw htext
      exact ⟨type, hocc.trans (hin hcontains)⟩

end Bindery
