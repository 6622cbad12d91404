import Bindery.Proofs.Documentation

/-!
# Larger registries

A registry with further entries leaves everything as it was that did not miss an entry before. What
can miss one is a type, the target of an alias, a declaration, and a reference in documentation;
only the last goes on without it, and reports it.

* `Registry.Extends`: a registry with further entries.
* `Kept`, `typeWithin_kept`: **a type stays as it is**, or was missing an entry.
* `Script.Kept`, `declare_kept`: a declaration without stray references stays as it is, and fails as
  it did, unless it was missing an entry.
* `generateModule_kept`: **the same of the source of a module**.
-/

namespace Bindery

/-- **A registry with further entries**: what is found in the first is found in the other. -/
def Registry.Extends (s r : Registry) : Prop :=
  ∀ id e, r.find? id = some e → s.find? id = some e

/-- An entry with a new id makes a registry larger. -/
theorem Registry.extends_of_insert {r s : Registry} {e : Entry} (h : r.insert e = some s) :
    s.Extends r := by
  intro id found hfound
  rw [find?_insert h, if_neg, hfound]
  -- the id of the new entry was not taken
  rintro rfl
  rw [insert_eq_none.2 (contains_of_find? hfound)] at h
  cases h

/-- **A result that stays as it is**, unless it was missing an entry. -/
def Kept {α : Type} (x y : Except BindingError α) : Prop :=
  y = x ∨ ∃ id, x = .error (.unknownEntry id)

namespace Kept

variable {α β : Type} {x y : Except BindingError α}

theorem refl (x : Except BindingError α) : Kept x x := Or.inl rfl

theorem missing (id : String) : Kept (.error (.unknownEntry id)) y := Or.inr ⟨id, rfl⟩

theorem map {f : α → β} (h : Kept x y) : Kept (x.map f) (y.map f) := by
  rcases h with rfl | ⟨id, rfl⟩
  · exact refl _
  · exact missing id

theorem bind {f g : α → Except BindingError β} (h : Kept x y) (hf : ∀ a, Kept (f a) (g a)) :
    Kept (x >>= f) (y >>= g) := by
  rcases h with rfl | ⟨id, rfl⟩
  · cases y with
    | ok a => exact hf a
    | error err => exact refl _
  · exact missing id

end Kept

section Signatures

variable {f g : String → Except BindingError String} (h : ∀ id, Kept (f id) (g id))
include h

theorem fieldText_kept (p : Field) : Kept (fieldText f p) (fieldText g p) :=
  (h p.typeId).map

theorem fieldTexts_kept (ps : List Field) : Kept (fieldTexts f ps) (fieldTexts g ps) := by
  induction ps with
  | nil => exact .refl _
  | cons p ps ih => exact (fieldText_kept h p).bind fun t => ih.bind fun ts => .refl _

theorem signatureText_kept (s : Signature) : Kept (signatureText f s) (signatureText g s) := by
  unfold signatureText
  refine (fieldTexts_kept h s.params).bind fun params => ?_
  rcases s.result with _ | id
  · exact .refl _
  · exact (h id).map.bind fun result => .refl _

end Signatures

namespace Registry

variable {r s : Registry}

theorem Extends.contains (hs : s.Extends r) {id : String} (h : r.contains id = true) :
    s.contains id = true := by
  obtain ⟨e, he, -⟩ := find?_of_contains h
  exact contains_of_find? (hs id e he)

theorem Extends.size_le (hs : s.Extends r) : r.size ≤ s.size := by
  have hids : ∀ id ∈ r.entries.map Entry.id, s.contains id = true :=
    fun id hid => hs.contains ((r.contains_iff id).2 hid)
  have := length_le_size r.distinct hids
  rwa [List.length_map] at this

/-- **A type stays as it is in a larger registry.** The callbacks in `path` are different and
registered, so that the fuel never decides; a larger registry has more of it. -/
theorem typeWithin_kept (hs : s.Extends r) (fuel fuel' : ℕ) {path : List String} {e : Entry}
    (he : r.find? e.id = some e) (hn : path.Nodup) (hc : ∀ p ∈ path, r.contains p = true)
    (hf : r.size < fuel + path.length) (hle : fuel ≤ fuel') :
    Kept (r.typeWithin fuel path e) (s.typeWithin fuel' path e) := by
  induction fuel generalizing fuel' path e with
  | zero =>
    -- without fuel there would be more callbacks in the path than entries
    have := length_le_size hn hc
    omega
  | succ fuel ih =>
    obtain ⟨fuel', rfl⟩ : ∃ n, fuel' = n + 1 := ⟨fuel' - 1, by omega⟩
    cases e with
    | builtin id spelling => exact .refl _
    | declared id name shape =>
      cases shape with
      | callback signature =>
        rw [typeWithin, typeWithin]
        by_cases hid : id ∈ path
        · rw [if_pos hid, if_pos hid]
          exact .refl _
        rw [if_neg hid, if_neg hid]
        refine signatureText_kept (fun reference => ?_) signature
        rcases hr : r.find? reference with _ | e'
        · exact .missing reference
        · have hid' : e'.id = reference := id_of_find? hr
          rw [hs reference e' hr]
          apply ih
          · rwa [hid']
          · exact List.nodup_cons.2 ⟨hid, hn⟩
          · exact List.forall_mem_cons.2 ⟨contains_of_find? he, hc⟩
          · rw [List.length_cons]
            omega
          · omega
      | _ => exact .refl _

theorem typeName_kept (hs : s.Extends r) {e : Entry} (he : r.find? e.id = some e) :
    Kept (r.typeName e) (s.typeName e) := by
  have hsize := hs.size_le
  exact typeWithin_kept hs _ _ he List.nodup_nil (by simp) (by simp) (by omega)

theorem typeRef_kept (hs : s.Extends r) (id : String) : Kept (r.typeRef id) (s.typeRef id) := by
  unfold typeRef resolve
  rcases he : r.find? id with _ | e
  · exact .missing id
  · have hid : e.id = id := id_of_find? he
    rw [hs id e he]
    exact typeName_kept hs (hid ▸ he)

theorem resultType_kept (hs : s.Extends r) (result : Option String) :
    Kept (r.resultType result) (s.resultType result) := by
  cases result with
  | none => exact .refl _
  | some id => exact typeRef_kept hs id

/-- A symbol that leads somewhere leads there in a larger registry. -/
theorem lookUp_kept (hs : s.Extends r) {symbol : String} (h : (r.lookUp symbol).isStray = false) :
    s.lookUp symbol = r.lookUp symbol := by
  have hlook : ∀ t : Registry, t.lookUp symbol = ((symbolParts symbol.toList).bind fun p =>
      (t.find? (String.ofList p.1)).bind fun e =>
        e.reference? (p.2.map String.ofList)).getD (.stray symbol) := fun _ => rfl
  rcases hp : symbolParts symbol.toList with _ | ⟨id, member⟩
  · simp only [hlook, hp, Option.bind_none]
  rcases he : r.find? (String.ofList id) with _ | e
  · simp [hlook, hp, he, Reference.isStray] at h
  · simp only [hlook, hp, Option.bind_some, he, hs _ e he]

/-- A line without stray symbols is the same in a larger registry, and has none there. -/
theorem line_kept (hs : s.Extends r) {line : String} (h : r.strayMarkers line = []) :
    s.strayMarkers line = [] ∧ s.resolveLine line = r.resolveLine line := by
  have hsame : ∀ symbol ∈ Text.symbolsOf line.toList,
      (r.lookUp (String.ofList symbol)).isStray = false ∧
        s.lookUp (String.ofList symbol) = r.lookUp (String.ofList symbol) := by
    intro symbol hsymbol
    have hfound : (r.lookUp (String.ofList symbol)).isStray = false := by
      have := List.filter_eq_nil_iff.1 h _ (List.mem_map_of_mem hsymbol)
      rwa [Bool.not_eq_true] at this
    exact ⟨hfound, lookUp_kept hs hfound⟩
  constructor
  · refine List.filter_eq_nil_iff.2 fun symbol hsymbol => ?_
    obtain ⟨cs, hcs, rfl⟩ := List.mem_map.1 hsymbol
    rw [(hsame cs hcs).2, (hsame cs hcs).1]
    simp
  · unfold resolveLine Text.resolveMarkers
    refine congrArg String.ofList (List.foldl_ext _ _ _ fun text symbol hsymbol => ?_)
    exact congrArg (fun found => Text.replaceAll (Text.marker symbol) found.markdown.toList text)
      (hsame symbol hsymbol).2

end Registry

namespace Script

/-- A script that neither fails nor reports a symbol that leads nowhere. -/
structure Settled (s : Script) : Prop where
  failures : s.failures = []
  found : ∀ symbol, .report (.strayMarker symbol) ∉ s

theorem settled_append {s t : Script} : Settled (s ++ t) ↔ s.Settled ∧ t.Settled := by
  constructor
  · intro h
    have hfail := h.failures
    simp only [collect_append, List.append_eq_nil_iff] at hfail
    exact ⟨⟨hfail.1, fun symbol hm => h.found symbol (List.mem_append_left _ hm)⟩,
      ⟨hfail.2, fun symbol hm => h.found symbol (List.mem_append_right _ hm)⟩⟩
  · rintro ⟨hs, ht⟩
    refine ⟨by simp [hs.failures, ht.failures], fun symbol hm => ?_⟩
    rcases List.mem_append.1 hm with hm | hm
    · exact hs.found symbol hm
    · exact ht.found symbol hm

/-- **A script that stays as it is** if it is settled. If it fails it fails the same way, unless it
was missing an entry. -/
structure Kept (s t : Script) : Prop where
  settled : s.Settled → t = s
  failure : t.failure? = s.failure? ∨ ∃ id, s.failure? = some (.unknownEntry id)

namespace Kept

variable {s t u v : Script}

theorem refl (s : Script) : Kept s s := ⟨fun _ => rfl, Or.inl rfl⟩

/-- Failing for a missing entry leaves everything open. -/
theorem missing (id : String) (t : Script) : Kept [.fail (.unknownEntry id)] t where
  settled h := by cases h.failures
  failure := Or.inr ⟨id, rfl⟩

theorem append (h : Kept s t) (h' : Kept u v) : Kept (s ++ u) (t ++ v) where
  settled hsu := by
    obtain ⟨hs, hu⟩ := settled_append.1 hsu
    rw [h.settled hs, h'.settled hu]
  failure := by
    unfold failure?
    rw [List.findSome?_append, List.findSome?_append]
    change (t.failure?.or v.failure?) = (s.failure?.or u.failure?) ∨
      ∃ id, (s.failure?.or u.failure?) = some (.unknownEntry id)
    -- the second part counts only if the first does not fail
    rcases h.failure with hst | ⟨id, hid⟩
    · rcases h'.failure with huv | ⟨id, hid⟩
      · exact Or.inl (by rw [hst, huv])
      · rcases hs : s.failure? with _ | err
        · exact Or.inr ⟨id, by rw [hid, Option.none_or]⟩
        · exact Or.inl (by rw [hst, hs, Option.some_or, Option.some_or])
    · exact Or.inr ⟨id, by rw [hid, Option.some_or]⟩

theorem flatMap {α : Type} {l : List α} {f g : α → Script} (h : ∀ a ∈ l, Kept (f a) (g a)) :
    Kept (l.flatMap f) (l.flatMap g) := by
  induction l with
  | nil => exact refl _
  | cons a l ih =>
    obtain ⟨ha, hl⟩ := List.forall_mem_cons.1 h
    rw [List.flatMap_cons, List.flatMap_cons]
    exact ha.append (ih hl)

/-- A script that is written under a condition. -/
theorem ite {c : Prop} [Decidable c] (h : c → Kept s t) :
    Kept (if c then s else []) (if c then t else []) := by
  split
  · rename_i hc
    exact h hc
  · exact refl _

theorem attempt {x y : Except BindingError String} (h : Bindery.Kept x y)
    (line : String → String) : Kept (attempt x line) (attempt y line) := by
  rcases h with rfl | ⟨id, rfl⟩
  · exact refl _
  · exact missing id _

/-- Comments and reports fail in no registry. -/
theorem of_remarks (hs : s.Remarks) (ht : t.Remarks) (h : s.Settled → t = s) : Kept s t where
  settled := h
  failure := by
    rw [failure?_eq_head?, failure?_eq_head?, hs.failures_eq_nil, ht.failures_eq_nil]
    exact Or.inl rfl

end Kept

end Script

namespace Setting

/-- A setting with another registry. -/
def withRegistry (a : Setting) (s : Registry) : Setting :=
  { a with registry := s }

variable {a : Setting} {s : Registry}

@[simp] theorem registry_withRegistry : (a.withRegistry s).registry = s := rfl

@[simp] theorem doc_withRegistry : (a.withRegistry s).doc = a.doc := rfl

@[simp] theorem entryDoc_withRegistry (id : String) :
    (a.withRegistry s).entryDoc id = a.entryDoc id := rfl

@[simp] theorem memberDoc?_withRegistry (id member : String) :
    (a.withRegistry s).memberDoc? id member = a.memberDoc? id member := rfl

variable (hs : s.Extends a.registry)
include hs

theorem docLine_kept (sign text : String) :
    Script.Kept (a.docLine sign text) ((a.withRegistry s).docLine sign text) := by
  refine .of_remarks (remarks_docLine sign text) (remarks_docLine sign text) fun h => ?_
  have hfound : a.registry.strayMarkers text = [] := by
    refine List.eq_nil_iff_forall_not_mem.2 fun marker hmarker => h.found marker ?_
    exact List.mem_append_left _ (List.mem_map_of_mem hmarker)
  obtain ⟨hnone, hline⟩ := Registry.line_kept hs hfound
  simp only [docLine, registry_withRegistry, hfound, hnone, hline]

theorem moduleDoc_kept : Script.Kept a.moduleDoc (a.withRegistry s).moduleDoc := by
  simp only [moduleDoc, doc_withRegistry]
  rcases a.doc with _ | doc
  · exact .refl _
  · exact .flatMap fun line _ => docLine_kept hs _ line

theorem heading_kept (e : Entry) : Script.Kept (a.heading e) ((a.withRegistry s).heading e) := by
  simp only [heading, entryDoc_withRegistry]
  rcases e.heading with err | h
  · exact .refl _
  · exact (Script.Kept.refl _).append (.flatMap fun text _ => docLine_kept hs _ text)

theorem memberLine_kept (id member : String) :
    Script.Kept (a.memberLine id member) ((a.withRegistry s).memberLine id member) := by
  simp only [memberLine, memberDoc?_withRegistry]
  rcases a.memberDoc? id member with _ | text
  · exact .refl _
  · exact docLine_kept hs _ text

theorem parameterLine_kept (id parameter : String) :
    Script.Kept (a.parameterLine id parameter) ((a.withRegistry s).parameterLine id parameter) := by
  simp only [parameterLine, memberDoc?_withRegistry]
  rcases a.memberDoc? id parameter with _ | text
  · exact .refl _
  · exact docLine_kept hs _ text

theorem front_kept : Script.Kept a.front (a.withRegistry s).front :=
  .ite fun _ => moduleDoc_kept hs

theorem headingScript_kept (e : Entry) :
    Script.Kept (a.headingScript e) ((a.withRegistry s).headingScript e) :=
  .ite fun _ => heading_kept hs e

theorem memberScript_kept (id member : String) :
    Script.Kept (a.memberScript id member) ((a.withRegistry s).memberScript id member) :=
  .ite fun _ => memberLine_kept hs id member

theorem parameterScript_kept (id : String) (params : List Field) :
    Script.Kept (a.parameterScript id params) ((a.withRegistry s).parameterScript id params) :=
  .ite fun _ => (Script.Kept.refl _).append (.flatMap fun _ _ => parameterLine_kept hs id _)

theorem caseScript_kept (id : String) (enumeration : Name) (c : Case) :
    Script.Kept (a.caseScript id enumeration c)
      ((a.withRegistry s).caseScript id enumeration c) := by
  unfold caseScript
  split
  · exact (memberScript_kept hs id _).append (.refl _)
  · exact .refl _

theorem fieldLine_kept (f : Field) : Kept (a.registry.fieldLine f) (s.fieldLine f) :=
  fieldText_kept (Registry.typeRef_kept hs) f

theorem recordScript_kept (e : Entry) (keyword ident : String) (fields : List Field) :
    Script.Kept (a.recordScript e keyword ident fields)
      ((a.withRegistry s).recordScript e keyword ident fields) := by
  unfold recordScript
  refine ((((Script.Kept.refl _).append (headingScript_kept hs e)).append (.refl _)).append
    (.flatMap fun f _ => ?_)).append (.refl _)
  exact (memberScript_kept hs e.id _).append (.attempt (fieldLine_kept hs f) _)

theorem aliasScript_kept (e : Entry) (name : Name) (target : String) :
    Script.Kept (a.aliasScript e name target) ((a.withRegistry s).aliasScript e name target) := by
  unfold aliasScript
  refine ((Script.Kept.refl _).append (headingScript_kept hs e)).append ?_
  simp only [registry_withRegistry, Registry.resolve]
  rcases ht : a.registry.find? target with _ | t
  · exact .missing target _
  · have hid : t.id = target := Registry.id_of_find? ht
    rw [hs target t ht]
    exact (Script.Kept.refl _).append (.attempt (Registry.typeName_kept hs (hid ▸ ht)) _)

theorem functionScript_kept (e : Entry) (name : Name) (signature : Signature) :
    Script.Kept (a.functionScript e name signature)
      ((a.withRegistry s).functionScript e name signature) := by
  have hparams : Script.Kept (signature.params.flatMap a.paramScript)
      (signature.params.flatMap (a.withRegistry s).paramScript) :=
    .flatMap fun p _ => .attempt (fieldLine_kept hs p) _
  have hresult := Registry.resultType_kept hs signature.result
  unfold functionScript
  exact ((((((Script.Kept.refl _).append (headingScript_kept hs e)).append
    (parameterScript_kept hs e.id _)).append (.refl _)).append hparams).append
      (.attempt hresult _)).append (.refl _)

/-- **A declaration stays as it is in a larger registry.** -/
theorem declare_kept (e : Entry) : Script.Kept (a.declare e) ((a.withRegistry s).declare e) := by
  cases e with
  | builtin id spelling => exact .refl _
  | declared id name shape =>
    have hheading := headingScript_kept hs (.declared id name shape)
    cases shape with
    | typeAlias target => exact aliasScript_kept hs _ name target
    | definition value =>
      exact (((Script.Kept.refl _).append hheading).append (.refl _)).append (.refl _)
    | handle => exact ((Script.Kept.refl _).append hheading).append (.refl _)
    | enumeration cases =>
      exact (((((Script.Kept.refl _).append hheading).append (.refl _)).append (.refl _)).append
        (.flatMap fun c _ => caseScript_kept hs id name c)).append (.refl _)
    | bitField bits =>
      exact ((((Script.Kept.refl _).append hheading).append (.refl _)).append
        (.flatMap fun b _ => (memberScript_kept hs id _).append (.refl _))).append (.refl _)
    | record fields =>
      exact (Script.Kept.refl _).append (recordScript_kept hs _ "struct" name.typeIdent fields)
    | union variants =>
      exact (Script.Kept.refl _).append (recordScript_kept hs _ "union" name.typeIdent variants)
    | function signature deviceCommand => exact functionScript_kept hs _ name signature
    | callback signature => exact .refl _

end Setting

namespace Api

variable {api : Api} {cfg : Config} {m : Module} {s : Registry}

/-- An interface with another registry. -/
def withRegistry (api : Api) (s : Registry) : Api :=
  { api with registry := s }

/-- A declaration stands behind a blank line, unless the entry has none. -/
theorem declarationScript_of_find? {a : Setting} {id : String} {e : Entry}
    (he : a.registry.find? id = some e) : declarationScript a id =
      if e.kind = .builtin ∨ e.kind = .callback then [] else .code "" :: a.declare e := by
  simp only [declarationScript, Registry.resolve, he]
  split
  · rename_i hnil
    rw [if_pos (Setting.declare_eq_nil_iff.1 hnil)]
  · rename_i hne
    rw [if_neg fun hk => hne (Setting.declare_eq_nil_iff.2 hk)]

theorem declarationScript_kept {a : Setting} (hs : s.Extends a.registry) (id : String) :
    Script.Kept (declarationScript a id) (declarationScript (a.withRegistry s) id) := by
  rcases he : a.registry.find? id with _ | e
  · have hmissing : declarationScript a id = [.fail (.unknownEntry id)] := by
      simp [declarationScript, Registry.resolve, he]
    rw [hmissing]
    exact .missing id _
  · rw [declarationScript_of_find? he,
      declarationScript_of_find? (a := a.withRegistry s) (hs id e he)]
    split
    · exact .refl _
    · exact (Script.Kept.refl [.code ""]).append (Setting.declare_kept hs e)

theorem moduleScript_kept (hs : s.Extends api.registry) :
    Script.Kept (api.moduleScript cfg m) ((api.withRegistry s).moduleScript cfg m) := by
  rw [moduleScript_eq, moduleScript_eq]
  exact (((Setting.front_kept hs).append (.refl _)).append (.refl _)).append
    (.flatMap fun id _ => declarationScript_kept hs id)

/-- A module with the same script has the same source and the same events. -/
theorem generateModule_congr
    (h : (api.withRegistry s).moduleScript cfg m = api.moduleScript cfg m) :
    (api.withRegistry s).generateModule cfg m = api.generateModule cfg m := by
  unfold generateModule
  rw [h]

/-- The script of a module that is not passed over decides its outcome. -/
theorem generateModule_of_owned (hb : m.builtIn = false) (hf : foreignRequirement? cfg m = none) :
    api.generateModule cfg m =
      ⟨(api.moduleScript cfg m).result.map fun lines =>
          some (unlines (lines ++ reexportLines (api.moduleScript cfg m))),
        (api.moduleScript cfg m).events⟩ := by
  simp [generateModule, hb, hf]

/-- **Further entries change nothing that was complete.** If a module has a source and no reference
in its documentation leads nowhere, a larger registry gives the same source with the same events. If
it fails, and not for a missing entry, it fails the same way. -/
theorem generateModule_kept (hs : s.Extends api.registry) (cfg : Config) (m : Module) :
    (∀ source, (api.generateModule cfg m).result = .ok (some source) →
      (∀ symbol, .strayMarker symbol ∉ (api.generateModule cfg m).events) →
        (api.withRegistry s).generateModule cfg m = api.generateModule cfg m) ∧
      ∀ err, (api.generateModule cfg m).result = .error err → (∀ id, err ≠ .unknownEntry id) →
        ((api.withRegistry s).generateModule cfg m).result = .error err := by
  have hkept : Script.Kept (api.moduleScript cfg m) ((api.withRegistry s).moduleScript cfg m) :=
    moduleScript_kept hs
  by_cases hskip : m.builtIn = true ∨ (foreignRequirement? cfg m).isSome = true
  · -- a module that is passed over has no source, and does not fail
    rw [result_generateModule_skipped hskip]
    exact ⟨fun source h => (by cases h), fun err h => (by cases h)⟩
  rw [not_or, Bool.not_eq_true, Option.not_isSome_iff_eq_none] at hskip
  have howned : ∀ other : Api, other.generateModule cfg m = _ :=
    fun _ => generateModule_of_owned hskip.1 hskip.2
  rw [howned api]
  constructor
  · intro source hsource hfound
    apply (generateModule_congr _).trans (howned api)
    rcases hscript : (api.moduleScript cfg m).result with err | lines
    · simp [hscript, Except.map] at hsource
    have hfail := Script.failures_nil_of_result hscript
    have hsettled : (api.moduleScript cfg m).Settled := by
      refine ⟨hfail, fun symbol hmem => hfound symbol ?_⟩
      unfold Script.events
      rw [Script.sound_eq_self hfail]
      exact List.mem_filterMap.2 ⟨_, hmem, rfl⟩
    exact hkept.settled hsettled
  · intro err herr hknown
    have hfirst : (api.moduleScript cfg m).failure? = some err := by
      rcases hf : (api.moduleScript cfg m).failure? with _ | first
      · simp [Script.result, hf, Except.map] at herr
      · simpa [Script.result, hf, Except.map] using herr
    have hsame : ((api.withRegistry s).moduleScript cfg m).failure? = some err := by
      rcases hkept.failure with heq | ⟨id, hid⟩
      · rw [heq, hfirst]
      · rw [hfirst] at hid
        exact absurd (Option.some.inj hid) (hknown id)
    rw [howned]
    simp [Script.result, hsame, Except.map]

/-- The sample with documentation. -/
def documentedModule : Module :=
  { sampleModule with doc := some sampleDoc }

/-- A further handle. -/
def furtherHandle : Entry :=
  .declared "handle.z" (.withPrefix "ti" "z") .handle

/-- An interface whose alias names a constant. -/
def mistyped : Api where
  lead := some "ti"
  registry :=
    ⟨[.declared "definition.x" (.withPrefix "ti" "x") (.definition "1"),
      .declared "alias.t" (.withPrefix "ti" "t") (.typeAlias "definition.x")], by decide⟩
  modules := [⟨"taichi/a.h", false, [], ["definition.x", "alias.t"], none⟩]

/-- A further handle changes neither the source of the sample nor the failure of an alias that names
a constant. -/
theorem generateModule_kept_sample :
    ∃ r s, sample.registry.insert furtherHandle = some r ∧
      mistyped.registry.insert furtherHandle = some s ∧
      r.Extends sample.registry ∧ s.Extends mistyped.registry ∧
      (∃ source, (sample.generateModule .default documentedModule).result = .ok (some source) ∧
        ((sample.withRegistry r).generateModule .default documentedModule).result =
          .ok (some source)) ∧
      ∀ m ∈ mistyped.modules, ((mistyped.withRegistry s).generateModule .default m).result =
        .error (.notAType "definition.x" .definition) := by
  obtain ⟨r, hr⟩ : ∃ r, sample.registry.insert furtherHandle = some r := ⟨_, rfl⟩
  obtain ⟨s, hs⟩ : ∃ s, mistyped.registry.insert furtherHandle = some s := ⟨_, rfl⟩
  have hrext := Registry.extends_of_insert hr
  have hsext := Registry.extends_of_insert hs
  refine ⟨r, s, hr, hs, hrext, hsext, ?_, fun m hm => ?_⟩
  · have hsome : (sample.generateModule .default documentedModule).result.map Option.isSome =
        .ok true := by
      decide +kernel
    have hevents : (sample.generateModule .default documentedModule).events = [] := by
      decide +kernel
    rcases hres : (sample.generateModule .default documentedModule).result with err | source
    · simp [hres, Except.map] at hsome
    obtain ⟨source, rfl⟩ : ∃ text, source = some text := by
      simpa [hres, Except.map, Option.isSome_iff_exists] using hsome
    have hsame := (generateModule_kept hrext .default documentedModule).1 source hres
      (by simp [hevents])
    exact ⟨source, rfl, by rw [hsame, hres]⟩
  · obtain rfl := List.mem_singleton.1 hm
    exact (generateModule_kept hsext .default _).2 _ (by decide +kernel) (by simp)

end Api

end Bindery
