import Bindery.Proofs.HandleNames
import Bindery.Proofs.Sections

/-!
# Declarations that fail

A declaration registers the short name of its entry before it comes to what can fail. So the failure
does not take the short name back; but it also ends the module, and the short names of the module
are dropped with it.

* `register_eq_self_iff`: a registration changes nothing exactly if it repeats what is there.
* `exports_declare`: **a declaration registers the same whether or not it fails**.
* `generateModule_error_iff`: a module fails exactly if one of its declarations does.
* `failed_declare_registers`: **what a failed declaration leaves of the short names**;
  `failure_registers`: one that leaves its own.
-/

namespace Bindery

/-- A put changes nothing exactly if the value is there already. -/
theorem Keyed.put_eq_self_iff {α : Type} {l : Keyed α} {key : String} {value : α} :
    put l key value = l ↔ get? l key = some value := by
  induction l with
  | nil => simp [put, get?]
  | cons p rest ih =>
    obtain ⟨k, v⟩ := p
    by_cases hk : k = key
    · simp [put, get?, hk, eq_comm]
    · simp [put, get?, hk, ih]

/-- A registration changes nothing exactly if it repeats what is there. -/
theorem Reexports.register_eq_self_iff {t : Reexports} {f : Reexport} :
    t.register f = t ↔ t.get? f.key = some f.target := by
  obtain ⟨targets, distinct⟩ := t
  unfold register get?
  rw [mk.injEq]
  exact Keyed.put_eq_self_iff

namespace Script

variable {front own rest : Script}

/-- What registers nothing registers nothing before a failure either. -/
theorem exports_of_registered_nil {s : Script} (h : s.registered = []) : s.exports = [] := by
  unfold exports sound
  refine List.filterMap_eq_nil_iff.2 fun step hstep => ?_
  exact List.filterMap_eq_nil_iff.1 h step ((List.takeWhile_prefix _).subset hstep)

/-- Behind a script without failures, what counts is what counts on its own. -/
theorem exports_append (h : front.failures = []) :
    (front ++ rest).exports = front.registered ++ rest.exports := by
  have hsound : ∀ step ∈ front, step.error?.isNone = true := fun step hstep =>
    Option.isNone_iff_eq_none.2 (List.filterMap_eq_nil_iff.1 h step hstep)
  unfold exports sound registered
  rw [List.takeWhile_append_of_pos hsound, collect_append]

/-- What comes first is registered if nothing else is. -/
theorem exports_of_first (hown : own.failures = []) (hrest : rest.registered = []) :
    (own ++ rest).exports = own.registered := by
  rw [exports_append hown, exports_of_registered_nil hrest, List.append_nil]

/-- **A script that registers in one place**: if nothing fails up to there, it registers the same
whatever fails behind. -/
theorem exports_of_parts (hfront : front.failures = []) (hown : own.failures = [])
    (hnone : front.registered = []) (hrest : rest.registered = []) :
    (front ++ (own ++ rest)).exports = own.registered := by
  rw [exports_append hfront, hnone, List.nil_append, exports_of_first hown hrest]

end Script

namespace Setting

/-- **A declaration registers the short name of its entry, whether or not it fails**, and nothing
else. -/
theorem exports_declare (s : Setting) (e : Entry) :
    (s.declare e).exports = if s.registry.shortens e then (exportScript e).registered else [] := by
  cases e with
  | builtin id spelling => rfl
  | declared id name shape =>
    generalize he : Entry.declared id name shape = e
    by_cases hk : shape.kind = .callback
    · cases shape with
      | callback signature => exact he ▸ rfl
      | _ => cases hk
    have hintro : (s.markScript e ++ s.headingScript e).failures = [] := by
      simp [← he, failures_headingScript hk]
    have hexport : (exportScript e).failures = [] := he ▸ failures_exportScript hk id name
    -- the registration stands in front of the members, which are what can fail
    cases shape with
    | typeAlias target =>
      have hdeclare : s.declare e = s.aliasScript e name target := he ▸ rfl
      have hshort : s.registry.shortens e = (s.registry.find? target).any (!·.isHandle) := he ▸ rfl
      rw [hdeclare, hshort, aliasScript, Script.exports_append hintro]
      unfold Registry.resolve
      rcases s.registry.find? target with _ | t
      · have hfail : Script.exports [.fail (.unknownEntry target)] = [] := rfl
        simp [hfail]
      rcases ht : t.isHandle with _ | _
      · simp [ht, Script.exports_append hexport, Script.exports_of_registered_nil]
      · simp [ht, Script.exports_of_registered_nil]
    | definition value =>
      have hdeclare : s.declare e = s.definitionScript e name value := he ▸ rfl
      rw [hdeclare, if_pos (he ▸ rfl), definitionScript, List.append_assoc]
      exact Script.exports_of_parts hintro hexport (by simp) (by simp)
    | handle =>
      have hdeclare : s.declare e = s.handleScript e name := he ▸ rfl
      rw [hdeclare, if_neg (by simp [← he, Registry.shortens])]
      exact Script.exports_of_registered_nil (by simp [handleScript])
    | enumeration cases =>
      have hdeclare : s.declare e = s.enumerationScript e name cases := he ▸ rfl
      rw [hdeclare, if_pos (he ▸ rfl), enumerationScript, List.append_assoc, List.append_assoc,
        List.append_assoc]
      exact Script.exports_of_parts hintro hexport (by simp) (by simp)
    | bitField bits =>
      have hdeclare : s.declare e = s.bitFieldScript e name bits := he ▸ rfl
      rw [hdeclare, if_pos (he ▸ rfl), bitFieldScript]
      simp only [List.append_assoc]
      exact Script.exports_of_parts (by simp) hexport (by simp) (by simp [flagScript])
    | record fields =>
      have hdeclare : s.declare e =
        (if Policy.isInfoType name.typeIdent then exportScript e else []) ++
          s.recordScript e "struct" name.typeIdent fields := he ▸ rfl
      have hshort : s.registry.shortens e = Policy.isInfoType name.typeIdent := he ▸ rfl
      rw [hdeclare, hshort]
      split
      · exact Script.exports_of_first hexport (by simp)
      · exact Script.exports_of_registered_nil (by simp)
    | union variants =>
      have hdeclare : s.declare e =
        exportScript e ++ s.recordScript e "union" name.typeIdent variants := he ▸ rfl
      rw [hdeclare, if_pos (he ▸ rfl)]
      exact Script.exports_of_first hexport (by simp)
    | function signature deviceCommand =>
      have hdeclare : s.declare e = s.functionScript e name signature := he ▸ rfl
      rw [hdeclare, if_pos (he ▸ rfl), functionScript]
      simp only [List.append_assoc]
      exact Script.exports_of_parts (by simp) hexport (by simp) (by simp [paramScript])
    | callback signature => exact he ▸ rfl

end Setting

namespace Api

variable {api : Api} {cfg : Config} {m : Module}

/-- The failures of a module are those of its declarations. -/
theorem failures_moduleScript : (api.moduleScript cfg m).failures =
    m.declares.flatMap fun id => (declarationScript (api.settingOf cfg m) id).failures := by
  rw [moduleScript_eq]
  simp [Setting.remarks_front.failures_eq_nil]

/-- **A module that is not passed over fails exactly if one of its declarations does.** -/
theorem generateModule_error_iff : (∃ err, (api.generateModule cfg m).result = .error err) ↔
    m.builtIn = false ∧ (∀ path ∈ m.requires, cfg.Owns path) ∧
      ∃ id ∈ m.declares, (declarationScript (api.settingOf cfg m) id).failures ≠ [] := by
  by_cases hskip : m.builtIn = true ∨ (foreignRequirement? cfg m).isSome = true
  · rw [result_generateModule_skipped hskip, ← foreignRequirement?_eq_none_iff]
    refine iff_of_false (by simp) ?_
    rintro ⟨hb, hf, -⟩
    simp [hb, hf] at hskip
  rw [not_or, Bool.not_eq_true, Option.not_isSome_iff_eq_none] at hskip
  have hfail : (∃ id ∈ m.declares, (declarationScript (api.settingOf cfg m) id).failures ≠ []) ↔
      (api.moduleScript cfg m).failures ≠ [] := by
    rw [failures_moduleScript, Ne, List.flatMap_eq_nil_iff]
    simp only [not_forall, exists_prop, ne_eq]
  rw [result_generateModule hskip.1 hskip.2, ← foreignRequirement?_eq_none_iff, hfail]
  rcases hs : (api.moduleScript cfg m).failures with _ | ⟨err, errs⟩
  · simp [Script.result_of_failures_nil hs, Except.map]
  · simp [Script.result_of_failures_cons hs, Except.map, hskip.1, hskip.2]

end Api

/-- **Entries that can fail without having taken a short name**: records of no info type, and other
names for what is not registered. -/
inductive Registry.FailsUnnamed (r : Registry) : Entry → Prop
  | record (id : String) (name : Name) (fields : List Field)
    (h : Policy.isInfoType name.typeIdent = false) :
    FailsUnnamed r (.declared id name (.record fields))
  | typeAlias (id : String) (name : Name) {target : String} (h : r.find? target = none) :
    FailsUnnamed r (.declared id name (.typeAlias target))

variable {s : Setting} {e : Entry}

/-- Of what fails, these entries are the ones without a short name: handles and names of handles do
not fail. -/
theorem failsUnnamed_iff (h : (s.declare e).failures ≠ []) :
    s.registry.shortens e = false ↔ s.registry.FailsUnnamed e := by
  constructor
  · intro hshort
    cases e with
    | builtin id spelling => exact absurd rfl h
    | declared id name shape =>
      cases shape with
      | record fields => exact .record id name fields hshort
      | typeAlias target =>
        rcases hfind : s.registry.find? target with _ | t
        · exact .typeAlias id name hfind
        have hhandle : t.isHandle = true := by
          simpa [Registry.shortens, hfind] using hshort
        cases t with
        | builtin => cases hhandle
        | declared id' name' shape' =>
          cases shape' with
          | handle =>
            exact absurd (failures_of_handleBehind (.another id name hfind (.handle id' name'))) h
          | _ => cases hhandle
      | handle => exact absurd (failures_of_handleBehind (.handle id name)) h
      | callback signature => exact absurd rfl h
      | _ => cases hshort
  · rintro (⟨id, name, fields, hinfo⟩ | ⟨id, name, hfind⟩)
    · exact hinfo
    · simp [Registry.shortens, hfind]

/-- **What a failed declaration leaves of the short names.** If the entry takes a short name, it is
registered as it would have been without the failure, and that changes the short names unless it
stood for the same before. They are left alone only by the failure of a record of no info type, or
of a name for something unregistered. In a module, a failed declaration is the end: unless the
module is passed over, its outcome is an error. -/
theorem failed_declare_registers {err : BindingError} (h : (s.declare e).failure? = some err)
    (t : Reexports) :
    (¬ s.registry.FailsUnnamed e → ∃ key target, e.shortIdent = .ok key ∧
        e.declaredIdent = .ok target ∧
        t.registerAll (s.declare e).exports = t.register ⟨key, target⟩ ∧
        (t.registerAll (s.declare e).exports = t ↔ t.get? key = some target)) ∧
      (s.registry.FailsUnnamed e → t.registerAll (s.declare e).exports = t) ∧
      ∀ (api : Api) (cfg : Config) (m : Module), api.settingOf cfg m = s →
        ∀ id ∈ m.declares, s.registry.find? id = some e → m.builtIn = false →
          (∀ path ∈ m.requires, cfg.Owns path) →
            ∃ err', (api.generateModule cfg m).result = .error err' := by
  have hfail : (s.declare e).failures ≠ [] := by
    intro hnil
    rw [Script.failure?_eq_head?, hnil] at h
    cases h
  rw [← failsUnnamed_iff hfail, Bool.not_eq_false]
  refine ⟨fun hshort => ?_, fun hshort => ?_, ?_⟩
  · obtain ⟨key, target, hkey, htarget⟩ := idents_of_shortens hshort
    have hexports : (s.declare e).exports = [⟨key, target⟩] := by
      rw [Setting.exports_declare, if_pos hshort]
      simp [Setting.exportScript, hkey, htarget]
    have hregister : t.registerAll (s.declare e).exports = t.register ⟨key, target⟩ := by
      rw [hexports]
      rfl
    refine ⟨key, target, hkey, htarget, hregister, ?_⟩
    rw [hregister]
    exact Reexports.register_eq_self_iff
  · have hexports : (s.declare e).exports = [] := by
      rw [Setting.exports_declare, if_neg (by simp [hshort])]
    rw [hexports]
    rfl
  · rintro api cfg m rfl id hid hfind hb hown
    refine Api.generateModule_error_iff.2 ⟨hb, hown, id, hid, ?_⟩
    rwa [Api.failures_declarationScript hfind]

/-- A text with an enumeration whose only case begins with a digit. -/
def digitText : String :=
  "[\"ti\",[[\"taichi/a.h\",false,[],[[\"enumeration\",\"e\",\x7b\"1d\":0\x7d]]]]]"

/-- The enumeration in `digitText`. -/
def digitEnumeration : Entry :=
  .declared "enumeration.e" (.withPrefix "ti" "e") (.enumeration [⟨.new "1d", 0⟩])

/-- The module in `digitText`. -/
def digitModule : Module :=
  ⟨"taichi/a.h", false, [], ["enumeration.e"], none⟩

/-- The interface in `digitText`. -/
def digit : Api where
  lead := some "ti"
  registry := ⟨[digitEnumeration], by decide⟩
  modules := [digitModule]

theorem ofText_digit : Api.ofText .empty digitText = .ok digit := by
  cbv

theorem failure?_digit :
    ((digit.settingOf .default digitModule).declare digitEnumeration).failure? =
      some (.unsupportedCase "enumeration.e" "1d") := by
  decide +kernel

/-- The enumeration in `digitText` takes the short name `E` from what had it, fails, and is not
written. -/
theorem failed_declare_registers_digit : Api.ofText .empty digitText = .ok digit ∧
    ((digit.settingOf .default digitModule).declare digitEnumeration).failure? =
      some (.unsupportedCase "enumeration.e" "1d") ∧
    (Reexports.empty.register ⟨"E", "Other"⟩).registerAll
        ((digit.settingOf .default digitModule).declare digitEnumeration).exports =
      Reexports.empty.register ⟨"E", "TiE"⟩ ∧
    ∃ err, (digit.generateModule .default digitModule).result = .error err := by
  obtain ⟨htaken, -, hmodule⟩ :=
    failed_declare_registers failure?_digit (Reexports.empty.register ⟨"E", "Other"⟩)
  obtain ⟨key, target, hkey, htarget, hregister, -⟩ := htaken (by rintro ⟨⟩)
  obtain rfl : "E" = key := Except.ok.inj hkey
  obtain rfl : "TiE" = target := Except.ok.inj htarget
  exact ⟨ofText_digit, failure?_digit, hregister,
    hmodule digit .default digitModule rfl _ (.head _) rfl rfl (by decide)⟩

/-- **A declaration that fails can leave its short name behind.** -/
theorem failure_registers : ¬ ∀ (table : BuiltinTable) (text : String) (api : Api),
    Api.ofText table text = .ok api → ∀ s : Setting, s.registry = api.registry →
      ∀ e ∈ api.registry.entries, ∀ err, (s.declare e).failure? = some err →
        ∀ t : Reexports, t.registerAll (s.declare e).exports = t := by
  intro hall
  have hkept := hall _ _ _ ofText_digit (digit.settingOf .default digitModule) rfl digitEnumeration
    (.head _) _ failure?_digit .empty
  revert hkept
  decide +kernel

end Bindery
