import Bindery.Proofs.Generation

/-!
# The short names of a module

Types, constants and functions share one space of short names, and the last declaration that takes a
short name keeps it.

* `Registry.shortens`, `Registry.reexport?`: the entries with a short name, and what each registers.
* `mem_registerAll_iff`: what is left after registrations one after the other.
* `Reexports.ListedBy`: the lines that list the short names of a table, one for each in order.
* `exports_declare`, `exports_moduleScript`: what a declaration and a module register.
* `generateModule_reexports`: **a declaration keeps its short name unless a later one of the module
  takes it for something else**, and each short name stands for the last that takes it.
-/

namespace Bindery

/-- **The entries with a short name**: no handles and no names of handles, and of the records those
whose type is an info type. -/
def Registry.shortens (r : Registry) : Entry → Bool
  | .builtin _ _ => false
  | .declared _ name shape =>
    match shape with
    | .typeAlias target => (r.find? target).any (!·.isHandle)
    | .handle | .callback _ => false
    | .record _ => Policy.isInfoType name.typeIdent
    | .definition _ | .enumeration _ | .bitField _ | .union _ | .function _ _ => true

/-- What the declaration of an id registers. -/
def Registry.reexport? (r : Registry) (id : String) : Option Reexport :=
  (r.find? id).bind fun e =>
    match r.shortens e, e.shortIdent, e.declaredIdent with
    | true, .ok key, .ok target => some ⟨key, target⟩
    | _, _, _ => none

/-- The short names of a generated module. -/
def Api.reexports (api : Api) (cfg : Config) (m : Module) : Reexports :=
  Reexports.empty.registerAll (api.moduleScript cfg m).exports

theorem idents_of_shortens {r : Registry} {e : Entry} (h : r.shortens e = true) :
    ∃ key target, e.shortIdent = .ok key ∧ e.declaredIdent = .ok target := by
  cases e with
  | builtin id spelling => cases h
  | declared id name shape =>
    cases shape with
    | callback signature => cases h
    | _ => exact ⟨_, _, rfl, rfl⟩

theorem reexport?_eq_some_iff {r : Registry} {id : String} {f : Reexport} :
    r.reexport? id = some f ↔ ∃ e, r.find? id = some e ∧ r.shortens e = true ∧
      e.shortIdent = .ok f.key ∧ e.declaredIdent = .ok f.target := by
  obtain ⟨key, target⟩ := f
  unfold Registry.reexport?
  rw [Option.bind_eq_some_iff]
  refine exists_congr fun e => and_congr_right fun _ => ?_
  constructor
  · intro h
    split at h
    · rename_i hs hk ht
      cases h
      exact ⟨hs, hk, ht⟩
    · cases h
  · rintro ⟨hs, hk, ht⟩
    rw [hs, hk, ht]

namespace Reexports

theorem get?_register (t : Reexports) (e : Reexport) (key : String) :
    (t.register e).get? key = if e.key = key then some e.target else t.get? key :=
  Keyed.get?_put t.targets e.key key e.target

/-- A registration after which no other takes the same short name. -/
def LastOf (es : List Reexport) (f : Reexport) : Prop :=
  ∃ pre post, es = pre ++ f :: post ∧ ∀ g ∈ post, g.key ≠ f.key

theorem lastOf_cons {e f : Reexport} {es : List Reexport} :
    LastOf (e :: es) f ↔ LastOf es f ∨ e = f ∧ ∀ g ∈ es, g.key ≠ f.key := by
  constructor
  · rintro ⟨pre, post, hes, hpost⟩
    cases pre with
    | nil =>
      obtain ⟨rfl, rfl⟩ := List.cons.inj hes
      exact Or.inr ⟨rfl, hpost⟩
    | cons g pre => exact Or.inl ⟨pre, post, (List.cons.inj hes).2, hpost⟩
  · rintro (⟨pre, post, rfl, hpost⟩ | ⟨rfl, hpost⟩)
    · exact ⟨e :: pre, post, rfl, hpost⟩
    · exact ⟨[], es, rfl, hpost⟩

/-- Every short name that is registered has a last registration. -/
theorem exists_lastOf {f : Reexport} {es : List Reexport} (hf : f ∈ es) :
    ∃ g, LastOf es g ∧ g.key = f.key := by
  induction es generalizing f with
  | nil => cases hf
  | cons e es ih =>
    by_cases hlater : ∃ g ∈ es, g.key = f.key
    · obtain ⟨g, hg, hkey⟩ := hlater
      obtain ⟨last, hlast, hk⟩ := ih hg
      exact ⟨last, lastOf_cons.2 (Or.inl hlast), hk.trans hkey⟩
    · obtain rfl : f = e :=
        (List.mem_cons.1 hf).resolve_right fun hmem => hlater ⟨f, hmem, rfl⟩
      exact ⟨f, lastOf_cons.2 (Or.inr ⟨rfl, fun g hg hk => hlater ⟨g, hg, hk⟩⟩), rfl⟩

theorem mem_of_lastOf {f : Reexport} {es : List Reexport} (h : LastOf es f) : f ∈ es := by
  obtain ⟨pre, post, rfl, -⟩ := h
  simp

/-- The last registrations among what a list of ids registers. -/
theorem lastOf_filterMap {ids : List String} {g : String → Option Reexport} {f : Reexport} :
    LastOf (ids.filterMap g) f ↔ ∃ pre id post, ids = pre ++ id :: post ∧ g id = some f ∧
      ∀ later ∈ post, ∀ h, g later = some h → h.key ≠ f.key := by
  constructor
  · rintro ⟨pre, post, hes, hpost⟩
    obtain ⟨before, rest, rfl, -, hrest⟩ := List.filterMap_eq_append_iff.1 hes
    obtain ⟨idle, id, after, rfl, -, hid, hafter⟩ := List.filterMap_eq_cons_iff.1 hrest
    refine ⟨before ++ idle, id, after, by simp, hid, fun later hmem h hh => ?_⟩
    exact hpost h (hafter ▸ List.mem_filterMap.2 ⟨later, hmem, hh⟩)
  · rintro ⟨pre, id, post, rfl, hid, hpost⟩
    refine ⟨pre.filterMap g, post.filterMap g, by simp [hid], fun h hh => ?_⟩
    obtain ⟨later, hmem, hlater⟩ := List.mem_filterMap.1 hh
    exact hpost later hmem h hlater

/-- A short name stands for the last target that was registered under it; if there was none, for
the target that it had before. -/
theorem get?_registerAll_iff (es : List Reexport) (t : Reexports) (f : Reexport) :
    (t.registerAll es).get? f.key = some f.target ↔
      LastOf es f ∨ t.get? f.key = some f.target ∧ ∀ g ∈ es, g.key ≠ f.key := by
  induction es generalizing t with
  | nil => simp [registerAll, LastOf]
  | cons e es ih =>
    have hreg : (t.registerAll (e :: es)) = (t.register e).registerAll es := rfl
    have hef : e.key = f.key → (e.target = f.target ↔ e = f) := by
      cases e
      cases f
      simp_all
    rw [hreg, ih, lastOf_cons, get?_register, List.forall_mem_cons]
    -- the first registration counts only if no later one has its key, and then it hides the table
    by_cases hk : e.key = f.key
    · simp [hk, hef hk]
    · have hne : e ≠ f := fun h => hk (h ▸ rfl)
      simp [hk, hne]

/-- The short names of the list are the keys of the table. -/
theorem map_key_toList (t : Reexports) : t.toList.map Reexport.key = Keyed.keys t.targets := by
  rw [toList, List.map_map, Keyed.keys]
  rfl

theorem mem_toList_iff (t : Reexports) (f : Reexport) :
    f ∈ t.toList ↔ t.get? f.key = some f.target := by
  obtain ⟨key, target⟩ := f
  have hmem : ⟨key, target⟩ ∈ t.toList ↔ (key, target) ∈ t.targets := by
    simp [toList]
  rw [hmem]
  exact Keyed.mem_iff_get? t.distinct

/-- **After registrations, those are left that no later one takes the short name of.** -/
theorem mem_registerAll_iff (es : List Reexport) (f : Reexport) :
    f ∈ (empty.registerAll es).toList ↔ LastOf es f := by
  rw [mem_toList_iff, get?_registerAll_iff]
  simp [empty, get?, Keyed.get?]

/-- **Lines that list short names**: one for each, in order, between the line that opens their
module and the line that closes it. -/
def ListedBy (t : Reexports) (lines : List String) : Prop :=
  lines = ["pub mod aliases \x7b"] ++
    t.toList.map (fun f => "pub use super::" ++ f.target ++ " as " ++ f.key ++ ";") ++ ["\x7d"]

theorem listedBy_lines (t : Reexports) : t.ListedBy t.lines := rfl

end Reexports

namespace Script

/-- All that a script registers. -/
abbrev registered (s : Script) : List Reexport :=
  s.collect Step.reexport?

@[simp] theorem registered_attempt (text : Except BindingError String) (line : String → String) :
    registered (attempt text line) = [] :=
  collect_attempt _ (fun _ => rfl) (fun _ => rfl) text line

/-- Comments and reports register nothing. -/
theorem Remarks.registered_eq_nil {s : Script} (h : s.Remarks) : s.registered = [] :=
  h.collect_eq_nil (fun _ => rfl) fun _ => rfl

/-- A script without failures registers all that it can. -/
theorem exports_of_failures_nil {s : Script} (h : s.failures = []) : s.exports = s.registered := by
  unfold exports
  rw [sound_eq_self h]

end Script

namespace Setting

variable {s : Setting}

@[simp] theorem registered_moduleDoc : s.moduleDoc.registered = [] :=
  remarks_moduleDoc.registered_eq_nil

@[simp] theorem registered_markScript (e : Entry) : (s.markScript e).registered = [] :=
  (remarks_markScript e).registered_eq_nil

/-- A heading that cannot be written is a failure, which registers nothing either. -/
@[simp] theorem registered_headingScript (e : Entry) : (s.headingScript e).registered = [] := by
  unfold headingScript heading
  split
  · split
    · exact ((Script.remarks_comment _).append
        (Script.Remarks.flatMap fun line _ => remarks_docLine _ line)).registered_eq_nil
    · rfl
  · rfl

@[simp] theorem registered_memberScript (id member : String) :
    (s.memberScript id member).registered = [] :=
  (remarks_memberScript id member).registered_eq_nil

@[simp] theorem registered_parameterScript (id : String) (params : List Field) :
    (s.parameterScript id params).registered = [] :=
  (remarks_parameterScript id params).registered_eq_nil

@[simp] theorem registered_caseScript (id : String) (name : Name) (c : Case) :
    (s.caseScript id name c).registered = [] := by
  unfold caseScript
  split <;> simp

@[simp] theorem registered_recordScript (e : Entry) (keyword ident : String) (fields : List Field) :
    (s.recordScript e keyword ident fields).registered = [] := by
  simp [recordScript, fieldScript]

/-- **A declaration registers the short name of its entry**, if it has one, and nothing else. -/
theorem registered_declare {e : Entry} (h : (s.declare e).failures = []) :
    (s.declare e).registered =
      if s.registry.shortens e then (exportScript e).registered else [] := by
  cases e with
  | builtin id spelling => rfl
  | declared id name shape =>
    cases shape with
    | typeAlias target =>
      simp only [declare, aliasScript, Registry.resolve, Registry.shortens] at h ⊢
      rcases Option.eq_none_or_eq_some (s.registry.find? target) with hf | ⟨t, hf⟩
      · -- a target that is not registered is a failure
        simp [hf] at h
      · by_cases ht : t.isHandle = true <;> simp [hf, ht]
    | record fields =>
      by_cases hi : Policy.isInfoType name.typeIdent = true <;>
        simp [declare, Registry.shortens, hi]
    | definition value => simp [declare, definitionScript, Registry.shortens]
    | handle => simp [declare, handleScript, Registry.shortens]
    | enumeration cases => simp [declare, enumerationScript, Registry.shortens]
    | bitField bits => simp [declare, bitFieldScript, flagScript, Registry.shortens]
    | union variants => simp [declare, Registry.shortens]
    | function signature deviceCommand =>
      simp [declare, functionScript, paramScript, Registry.shortens]
    | callback signature => rfl

end Setting

namespace Api

variable {api : Api} {cfg : Config} {m : Module}

theorem registered_declarationScript {s : Setting} {id : String}
    (h : (declarationScript s id).failures = []) :
    (declarationScript s id).registered = (s.registry.reexport? id).toList := by
  rcases hf : s.registry.find? id with _ | e
  · simp [declarationScript, Registry.resolve, hf] at h
  rw [failures_declarationScript hf] at h
  have hdeclare : (declarationScript s id).registered = (s.declare e).registered := by
    rcases declarationScript_cases hf with hscript | hscript
    · rw [hscript]
    · rw [hscript]
      rfl
  rw [hdeclare, Setting.registered_declare h, Registry.reexport?, hf, Option.bind_some]
  by_cases hs : s.registry.shortens e = true
  · obtain ⟨key, target, hk, ht⟩ := idents_of_shortens hs
    simp [hs, hk, ht, Setting.exportScript]
  · simp [hs]

/-- A module registers the short names of its declarations in order. -/
theorem exports_moduleScript (h : (api.moduleScript cfg m).failures = []) :
    (api.moduleScript cfg m).exports = m.declares.filterMap api.registry.reexport? := by
  have hdoc : ∀ s : Setting, (if s.documents then s.moduleDoc else []).registered = [] := by
    intro s
    split <;> simp
  rw [Script.exports_of_failures_nil h]
  unfold moduleScript at h ⊢
  rw [Script.failures, Script.collect_append, List.append_eq_nil_iff,
    Script.collect_flatMap_eq_nil_iff] at h
  simp only [Script.collect_append, hdoc, Script.collect_map_code Step.reexport? fun _ => rfl,
    List.nil_append, Script.collect_flatMap]
  -- every declaration is sound by itself and registers at most one short name
  rw [List.filterMap_eq_flatMap_toList]
  exact List.flatMap_congr fun id hid => registered_declarationScript (h.2 id hid)

/-- The source of a module is its lines, and its short names behind a blank line. -/
theorem source_eq_lines {source : String}
    (h : (api.generateModule cfg m).result = .ok (some source)) :
    (api.moduleScript cfg m).failures = [] ∧
      source = unlines ((api.moduleScript cfg m).lines ++ "" :: (api.reexports cfg m).lines) := by
  unfold generateModule at h
  split at h
  · cases h
  · split at h
    · cases h
    · rcases hres : (api.moduleScript cfg m).result with err | ls
      · simp [hres, Except.map] at h
      · have hf := Script.failures_nil_of_result hres
        have hls : (api.moduleScript cfg m).lines = ls := by
          rw [Script.result_of_failures_nil hf] at hres
          exact (Script.lines_of_failures_nil hf).trans (Except.ok.inj hres)
        refine ⟨hf, ?_⟩
        simpa [hres, hls, Except.map, reexportLines, reexports, eq_comm] using h

/-- The source of a module ends with its short names. -/
theorem source_of_generateModule {source : String}
    (h : (api.generateModule cfg m).result = .ok (some source)) :
    (api.moduleScript cfg m).failures = [] ∧
      ∃ body, source = unlines (body ++ "" :: (api.reexports cfg m).lines) :=
  ⟨(source_eq_lines h).1, _, (source_eq_lines h).2⟩

/-- What is left of the short names of a generated module. -/
theorem mem_reexports_iff (h : (api.moduleScript cfg m).failures = []) (f : Reexport) :
    f ∈ (api.reexports cfg m).toList ↔
      Reexports.LastOf (m.declares.filterMap api.registry.reexport?) f := by
  unfold reexports
  rw [exports_moduleScript h, Reexports.mem_registerAll_iff]

/-- What is left was registered by a declaration of the module. -/
theorem exists_declares_of_mem (h : (api.moduleScript cfg m).failures = []) {f : Reexport}
    (hf : f ∈ (api.reexports cfg m).toList) :
    ∃ id ∈ m.declares, api.registry.reexport? id = some f :=
  List.mem_filterMap.1 (Reexports.mem_of_lastOf ((mem_reexports_iff h f).1 hf))

/-- A short name that a declaration registers is left, be it for a later declaration. -/
theorem exists_mem_reexports (h : (api.moduleScript cfg m).failures = []) {f : Reexport}
    {id : String} (hid : id ∈ m.declares) (hf : api.registry.reexport? id = some f) :
    ∃ g ∈ (api.reexports cfg m).toList, g.key = f.key := by
  obtain ⟨g, hlast, hsame⟩ := Reexports.exists_lastOf (List.mem_filterMap.2 ⟨id, hid, hf⟩)
  exact ⟨g, (mem_reexports_iff h g).2 hlast, hsame⟩

/-- A declaration keeps its line if all later ones with its short name stand for the same. -/
theorem mem_reexports_of_kept (h : (api.moduleScript cfg m).failures = []) {f : Reexport}
    {pre post : List String} {id : String} (hm : m.declares = pre ++ id :: post)
    (hid : api.registry.reexport? id = some f)
    (hkept : ∀ later ∈ post, ∀ g, api.registry.reexport? later = some g → g.key = f.key →
      g.target = f.target) : f ∈ (api.reexports cfg m).toList := by
  have hsplit : m.declares.filterMap api.registry.reexport? =
      pre.filterMap api.registry.reexport? ++ f :: post.filterMap api.registry.reexport? := by
    rw [hm, List.filterMap_append, List.filterMap_cons_some hid]
  -- the last registration from this one on
  obtain ⟨g, hlast, hkey⟩ := Reexports.exists_lastOf
    (List.mem_cons_self (a := f) (l := post.filterMap api.registry.reexport?))
  have hgf : g = f := by
    rcases List.mem_cons.1 (Reexports.mem_of_lastOf hlast) with rfl | hg
    · rfl
    · -- a later one with the same key has the same target, so that it is the same line
      obtain ⟨later, hlater, hreg⟩ := List.mem_filterMap.1 hg
      have htarget := hkept later hlater g hreg hkey
      cases g
      cases f
      simp_all
  rw [mem_reexports_iff h, hsplit]
  obtain ⟨front, back, hes, hback⟩ := hgf ▸ hlast
  exact ⟨pre.filterMap api.registry.reexport? ++ front, back, by rw [hes, List.append_assoc], hback⟩

/-- **Short names are kept unless they are taken.** The source of a module ends with lines that list
its short names, each of them once and for the last declaration that registers it. A declaration
with a short name has its line there if no later declaration registers that name for something
else. -/
theorem generateModule_reexports {source : String}
    (h : (api.generateModule cfg m).result = .ok (some source)) :
    ∃ body, source = unlines (body ++ "" :: (api.reexports cfg m).lines) ∧
      (api.reexports cfg m).ListedBy (api.reexports cfg m).lines ∧
      (Keyed.keys (api.reexports cfg m).targets).Nodup ∧
      (∀ f, f ∈ (api.reexports cfg m).toList ↔
        ∃ pre id post, m.declares = pre ++ id :: post ∧ api.registry.reexport? id = some f ∧
          ∀ later ∈ post, ∀ g, api.registry.reexport? later = some g → g.key ≠ f.key) ∧
      ∀ pre id post e, m.declares = pre ++ id :: post → api.registry.find? id = some e →
        api.registry.shortens e = true →
        ∃ key target, e.shortIdent = .ok key ∧ e.declaredIdent = .ok target ∧
          ((∀ later ∈ post, ∀ g, api.registry.reexport? later = some g → g.key = key →
              g.target = target) →
            Reexport.line ⟨key, target⟩ ∈ (api.reexports cfg m).lines) := by
  obtain ⟨hok, body, hbody⟩ := source_of_generateModule h
  refine ⟨body, hbody, (api.reexports cfg m).listedBy_lines, (api.reexports cfg m).distinct,
    fun f => (mem_reexports_iff hok f).trans Reexports.lastOf_filterMap, ?_⟩
  intro pre id post e hm he hs
  obtain ⟨key, target, hk, ht⟩ := idents_of_shortens hs
  refine ⟨key, target, hk, ht, fun hkept => ?_⟩
  have hreg : api.registry.reexport? id = some ⟨key, target⟩ :=
    reexport?_eq_some_iff.2 ⟨e, he, hs, hk, ht⟩
  have hmem := List.mem_map_of_mem (f := Reexport.line) (mem_reexports_of_kept hok hm hreg hkept)
  unfold Reexports.lines
  exact List.mem_append_left _ (List.mem_append_right _ hmem)

theorem sample_generated :
    ∃ source, (sample.generateModule .default sampleModule).result = .ok (some source) := by
  have hscript : (sample.moduleScript .default sampleModule).Decides _ :=
    moduleScript_decides (closed_of_ofText ofText_sample) sample_unfolds
      ((consistent_of_ofText ofText_sample).declared _ (.head _))
  obtain ⟨ls, hls⟩ := (Script.decides_result hscript).ok_iff.2 sample_declarable
  have hresult : (sample.generateModule .default sampleModule).result = _ :=
    result_generateModule rfl rfl
  rw [hls] at hresult
  exact ⟨_, hresult⟩

/-- In the sample, the enumeration keeps the short name `X`. -/
theorem generateModule_reexports_sample :
    ∃ source, (sample.generateModule .default sampleModule).result = .ok (some source) ∧
      Reexport.line ⟨"X", "TiX"⟩ ∈ (sample.reexports .default sampleModule).lines := by
  obtain ⟨source, hsource⟩ := sample_generated
  obtain ⟨-, -, -, -, -, hkept⟩ := generateModule_reexports hsource
  obtain ⟨key, target, hk, ht, hline⟩ := hkept ["handle.y", "definition.x"] "enumeration.x"
    ["callback.f", "structure.g"] _ rfl rfl rfl
  obtain rfl : "X" = key := Except.ok.inj hk
  obtain rfl : "TiX" = target := Except.ok.inj ht
  exact ⟨source, hsource, hline (by decide)⟩

/-- **A short name can be lost**: the constant of the sample registers `X` before the enumeration
does. -/
theorem reexport_lost : ¬ ∀ (table : BuiltinTable) (text : String) (api : Api),
    Api.ofText table text = .ok api → ∀ cfg, ∀ m ∈ api.modules, ∀ source,
      (api.generateModule cfg m).result = .ok (some source) →
        ∀ id ∈ m.declares, ∀ e, api.registry.find? id = some e → api.registry.shortens e = true →
          ∀ key target, e.shortIdent = .ok key → e.declaredIdent = .ok target →
            Reexport.line ⟨key, target⟩ ∈ (api.reexports cfg m).lines := by
  intro hall
  obtain ⟨source, hsource⟩ := sample_generated
  have hline := hall _ _ _ ofText_sample .default sampleModule (.head _) source hsource
    "definition.x" (by decide) _ rfl rfl "X" "TI_X" rfl rfl
  rw [reexports, exports_moduleScript (source_of_generateModule hsource).1] at hline
  revert hline
  decide

end Api

end Bindery
