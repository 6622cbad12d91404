import Bindery.Proofs.Extension
import Bindery.Proofs.Independence

/-!
# Which modules a run selects

A module is passed over in two places: a run looks at what it is and at its path, and the source of
a module looks at what it requires. Every module that is passed over is reported once.

* `Config.StemOf`, `stem?_eq_some_iff`: the stem of a path.
* `sources_are_selected`: the sources of a run are those of the modules that it writes, in order.
* `Script.reports`, `reports_declare`: what a script would report; without documentation that is
  nothing.
* `Config.notices`: what a run has to say of a module.
* `generateOne_notices`, `generateAll_notices`: one module, and modules one after the other.
* `generate_selects`: **a run selects exactly the modules that it can write, and gives the reason
  for every other one**.
-/

namespace Bindery

/-- **The stem of a path**: what stands between the beginning and the end of the paths of the
interface's own headers. A path without that end keeps its own. -/
def Config.StemOf (cfg : Config) (path stem : String) : Prop :=
  path = cfg.scope ++ stem ++ cfg.headerExtension ∨
    path = cfg.scope ++ stem ∧ ¬ cfg.headerExtension.toList <:+ stem.toList

theorem stem?_eq_some_iff {cfg : Config} {path stem : String} :
    cfg.stem? path = some stem ↔ cfg.StemOf path stem := by
  have hafter : ∀ rest, Text.afterFront? cfg.scope.toList path.toList = some rest ↔
      path.toList = cfg.scope.toList ++ rest :=
    fun _ => Text.afterFront?_eq_some
  unfold Config.stem? Config.StemOf
  simp only [Option.map_eq_some_iff, hafter, ← String.toList_inj, String.toList_append,
    String.toList_ofList]
  constructor
  · rintro ⟨rest, hpath, hstem⟩
    rcases hback : Text.beforeBack? cfg.headerExtension.toList rest with _ | before
    · -- the rest does not end as headers do, and is the stem
      obtain rfl : rest = stem.toList := by simpa [hback] using hstem
      refine .inr ⟨hpath, fun ⟨before, hend⟩ => ?_⟩
      rw [Text.beforeBack?_eq_some.2 hend.symm] at hback
      cases hback
    · obtain rfl : before = stem.toList := by simpa [hback] using hstem
      exact .inl (by rw [hpath, Text.beforeBack?_eq_some.1 hback, List.append_assoc])
  · rintro (hpath | ⟨hpath, hend⟩)
    · refine ⟨stem.toList ++ cfg.headerExtension.toList, by rw [hpath, List.append_assoc], ?_⟩
      rw [Text.beforeBack?_eq_some.2 rfl]
      rfl
    · refine ⟨stem.toList, hpath, ?_⟩
      rcases hback : Text.beforeBack? cfg.headerExtension.toList stem.toList with _ | before
      · rfl
      · exact absurd ⟨before, (Text.beforeBack?_eq_some.1 hback).symm⟩ hend

instance (cfg : Config) (m : Module) : Decidable (cfg.Generates m) :=
  decidable_of_iff (m.builtIn = false ∧ cfg.Owns m.name ∧ ∀ path ∈ m.requires, cfg.Owns path)
    ⟨fun ⟨hb, hown, hreq⟩ => ⟨hb, hown, hreq⟩, fun h => ⟨h.notBuiltIn, h.own, h.requires⟩⟩

namespace Script

/-- What a script would report if nothing in it failed. -/
abbrev reports (s : Script) : List Event :=
  s.collect Step.event?

@[simp] theorem reports_attempt (text : Except BindingError String) (line : String → String) :
    (attempt text line).reports = [] :=
  collect_attempt _ (fun _ => rfl) (fun _ => rfl) text line

/-- What a script reports is part of what it would report. -/
theorem events_eq_nil {s : Script} (h : s.reports = []) : s.events = [] := by
  have hpart : (s.sound.collect Step.event?).Sublist s.reports :=
    (List.takeWhile_sublist _).filterMap _
  rw [h, List.sublist_nil] at hpart
  exact hpart

end Script

namespace Setting

variable {s : Setting}

@[simp] theorem reports_markScript {e : Entry} : (s.markScript e).reports = [] := by
  unfold markScript
  split <;> rfl

@[simp] theorem reports_exportScript {e : Entry} : (exportScript e).reports = [] :=
  collect_exportScript (fun _ => rfl) (fun _ => rfl) e

section Undocumented

variable (hs : s.documents = false)
include hs

theorem headingScript_eq_nil {e : Entry} : s.headingScript e = [] := by
  simp [headingScript, hs]

theorem memberScript_eq_nil {id member : String} : s.memberScript id member = [] := by
  simp [memberScript, hs]

theorem parameterScript_eq_nil {id : String} {params : List Field} :
    s.parameterScript id params = [] := by
  simp [parameterScript, hs]

theorem reports_recordScript {e : Entry} {keyword ident : String} {fields : List Field} :
    (s.recordScript e keyword ident fields).reports = [] := by
  have hfields : Script.reports (fields.flatMap (s.fieldScript e.id)) = [] :=
    (Script.collect_flatMap_eq_nil_iff _).2 fun f _ => by simp [fieldScript, memberScript_eq_nil hs]
  simp [recordScript, headingScript_eq_nil hs, hfields]

/-- **Without documentation, a declaration reports nothing.** -/
theorem reports_declare (e : Entry) : (s.declare e).reports = [] := by
  cases e with
  | builtin id spelling => rfl
  | declared id name shape =>
    cases shape with
    | typeAlias target =>
      simp only [declare, aliasScript, headingScript_eq_nil hs]
      rcases s.registry.resolve target with err | t
      · simp
      · cases ht : t.isHandle <;> simp [ht]
    | definition value => simp [declare, definitionScript, headingScript_eq_nil hs]
    | handle => simp [declare, handleScript, headingScript_eq_nil hs]
    | enumeration cases =>
      have hcases : Script.reports (cases.flatMap (s.caseScript id name)) = [] :=
        (Script.collect_flatMap_eq_nil_iff _).2 fun c _ => by
          unfold caseScript
          split <;> simp [memberScript_eq_nil hs]
      simp [declare, enumerationScript, headingScript_eq_nil hs, Entry.id, hcases]
    | bitField bits =>
      have hbits : Script.reports (bits.flatMap (s.flagScript id)) = [] :=
        (Script.collect_flatMap_eq_nil_iff _).2 fun b _ => by
          simp [flagScript, memberScript_eq_nil hs]
      simp [declare, bitFieldScript, headingScript_eq_nil hs, Entry.id, hbits]
    | record fields =>
      by_cases hinfo : Policy.isInfoType name.typeIdent = true <;>
        simp [declare, reports_recordScript hs, hinfo]
    | union variants => simp [declare, reports_recordScript hs]
    | function signature deviceCommand =>
      have hparams : Script.reports (signature.params.flatMap s.paramScript) = [] :=
        (Script.collect_flatMap_eq_nil_iff _).2 fun p _ => by simp [paramScript]
      simp [declare, functionScript, headingScript_eq_nil hs, parameterScript_eq_nil hs, hparams]
    | callback signature => rfl

end Undocumented

end Setting

/-- The first path that is not one of the interface's own. -/
def Config.firstForeign? (cfg : Config) (paths : List String) : Option String :=
  paths.find? fun path => ¬ cfg.Owns path

/-- **What a run has to say of a module** when it writes no documentation: one line, and behind the
line for a module that it takes up a second one if the module needs a foreign one. -/
def Config.notices (cfg : Config) (m : Module) : List (Level × String) :=
  if m.builtIn then [(.debug, "skipping built-in module '" ++ m.name ++ "'")]
  else if cfg.Owns m.name then
    (.info, "processing module '" ++ m.name ++ "'") ::
      (cfg.firstForeign? m.requires).toList.map fun path =>
        (.warn, "module '" ++ m.name ++ "' requires '" ++ path ++ "' which is outside '" ++
          cfg.scope ++ "', skipped")
  else [(.warn, "module '" ++ m.name ++ "' is outside '" ++ cfg.scope ++ "', skipped")]

/-- The severity of an event with its wording. -/
def Event.notice (e : Event) : Level × String :=
  (e.level, e.text)

namespace Api

variable {api : Api} {cfg : Config} {m : Module}

theorem foreignRequirement?_eq_firstForeign? :
    foreignRequirement? cfg m = cfg.firstForeign? m.requires := by
  unfold foreignRequirement? Config.firstForeign?
  congr 1
  funext path
  rw [Bool.eq_iff_iff, decide_eq_true_iff, owns_iff, ← Option.isSome_iff_exists,
    Option.not_isSome_iff_eq_none, Option.isNone_iff_eq_none]

/-- The script of a module reports nothing where no documentation is written. -/
theorem events_moduleScript (hmode : cfg.docMode = .entryId) :
    (api.moduleScript cfg m).events = [] := by
  have hs : (api.settingOf cfg m).documents = false := by
    simp [Setting.documents, settingOf, hmode]
  refine Script.events_eq_nil ?_
  have hdeclares : Script.reports
      (m.declares.flatMap (declarationScript (api.settingOf cfg m))) = [] :=
    (Script.collect_flatMap_eq_nil_iff _).2 fun id _ => by
      rcases hid : (api.settingOf cfg m).registry.find? id with _ | e
      · simp [declarationScript, Registry.resolve, hid]
      · rcases declarationScript_cases hid with h | h <;> simp [h, Setting.reports_declare hs]
  simp [moduleScript_eq, Setting.front, hs, hdeclares]

/-- **What a run reports of one module.** -/
theorem generateOne_notices (hmode : cfg.docMode = .entryId) :
    (api.generateOne cfg m).events.map Event.notice = cfg.notices m := by
  unfold generateOne Config.notices
  by_cases hb : m.builtIn = true
  · rw [if_pos hb, if_pos hb]
    rfl
  rw [if_neg hb, if_neg hb]
  rcases hstem : cfg.stem? m.name with _ | stem
  · have hforeign : ¬ cfg.Owns m.name := by simp [owns_iff, hstem]
    rw [if_neg hforeign]
    rfl
  · rw [if_pos (owns_iff.2 ⟨stem, hstem⟩), ← foreignRequirement?_eq_firstForeign?]
    have hevents : (api.generateModule cfg m).events =
        (foreignRequirement? cfg m).toList.map fun path =>
          .foreignRequirement m.name path cfg.scope := by
      rw [Bool.not_eq_true] at hb
      rcases hf : foreignRequirement? cfg m with _ | path
      · rw [generateModule_of_owned hb hf, events_moduleScript hmode]
        rfl
      · simp [generateModule, hb, hf, Outcome.after, Outcome.ok]
    simp only [Outcome.after, Outcome.map, hevents, List.map_cons, List.map_map]
    rfl

/-- **What a run reports of modules in order**, if it succeeds on all of them. -/
theorem generateAll_notices (hmode : cfg.docMode = .entryId) {ms : List Module}
    {generated : List GeneratedModule} (h : (api.generateAll cfg ms).result = .ok generated) :
    (api.generateAll cfg ms).events.map Event.notice = ms.flatMap cfg.notices := by
  induction ms generalizing generated with
  | nil => rfl
  | cons m ms ih =>
    obtain ⟨made, hone, hmore⟩ := Outcome.result_andThen_eq_ok.1 h
    rw [Outcome.result_map] at hmore
    rcases hall : (api.generateAll cfg ms).result with err | more
    · simp [hall, Except.map] at hmore
    have hevents : (api.generateAll cfg (m :: ms)).events =
        (api.generateOne cfg m).events ++ (api.generateAll cfg ms).events := by
      simp [generateAll, Outcome.andThen, hone, Outcome.map]
    rw [hevents, List.map_append, generateOne_notices hmode, ih hall, List.flatMap_cons]

/-- **A source is that of its module.** -/
structure IsSourceOf (api : Api) (cfg : Config) (m : Module) (g : GeneratedModule) : Prop where
  module : g.module = m.name
  stem : cfg.StemOf m.name g.stem
  fileName : g.fileName = g.stem ++ ".rs"
  source : (api.generateModule cfg m).result = .ok (some g.source)

theorem isSourceOf_of_generateOne {g : GeneratedModule}
    (h : (api.generateOne cfg m).result = .ok (some g)) : api.IsSourceOf cfg m g := by
  obtain ⟨-, hname, hstem, hsource⟩ := generateOne_eq_some_iff.1 h
  exact ⟨hname.symm, stem?_eq_some_iff.1 hstem, rfl, hsource⟩

/-- The sources of a run are those of the modules that it writes, one by one. -/
theorem sources_are_selected {ms : List Module}
    (hok : ∀ m ∈ ms, ∃ made, (api.generateOne cfg m).result = .ok made) :
    List.Forall₂ (api.IsSourceOf cfg) (ms.filter (cfg.Generates ·))
      (ms.filterMap (api.source? cfg)) := by
  induction ms with
  | nil => exact .nil
  | cons m ms ih =>
    obtain ⟨⟨made, hone⟩, hrest⟩ := List.forall_mem_cons.1 hok
    rw [List.filter_cons, List.filterMap_cons, source?_of_ok hone]
    by_cases hg : cfg.Generates m
    · obtain ⟨g, rfl⟩ := exists_generateOne hg hone
      rw [if_pos (decide_eq_true hg)]
      exact .cons (isSourceOf_of_generateOne hone) (ih hrest)
    · -- a module that is not written has no source
      obtain rfl : made = none := by
        rcases made with _ | g
        · rfl
        · exact absurd (generateOne_eq_some_iff.1 hone).1 hg
      rw [if_neg (by simpa using hg)]
      exact ih hrest

/-- **What a run selects.** If a run succeeds, its sources are, in the order of the interface, those
of exactly the modules that are not built-in, are the interface's own, and need only such: each with
the path and the stem of the module, the file name for the stem, and the source that the module has
on its own. Where no documentation is written, the run reports of each module, in the same order,
that it is built-in, or foreign, or taken up, and in the last case behind it the first requirement
that is foreign, if there is one. -/
theorem generate_selects {generated : List GeneratedModule}
    (h : (api.generate cfg).result = .ok generated) :
    List.Forall₂ (api.IsSourceOf cfg) (api.modules.filter (cfg.Generates ·)) generated ∧
      (cfg.docMode = .entryId →
        (api.generate cfg).events.map Event.notice = api.modules.flatMap cfg.notices) := by
  obtain ⟨hok, rfl⟩ := generateAll_eq_ok_iff.1 h
  exact ⟨sources_are_selected hok, fun hmode => generateAll_notices hmode h⟩

/-- The only module of `assorted` that has a source. Its documentation has a reference that leads
nowhere. -/
def assortedModule : Module :=
  ⟨"taichi/b.h", false, ["taichi/a.h"], [], some ⟨["`nowhere`"], [], []⟩⟩

/-- Five modules: a built-in one, one outside the scope, and two that need foreign ones stand around
`assortedModule`. -/
def assorted : Api where
  lead := some "ti"
  registry := .empty
  modules :=
    [⟨"stdint.h", true, [], [], none⟩,
      ⟨"other/x.h", false, ["stdint.h"], [], none⟩,
      ⟨"taichi/a.h", false, ["taichi/b.h", "stdint.h", "other/x.h"], [], none⟩,
      assortedModule,
      ⟨"taichi/c.h", false, ["other/x.h", "stdint.h"], [], none⟩]

/-- Settings without documentation. -/
def marked : Config :=
  { Config.default with docMode := .entryId }

/-- Of the five modules one has a source, and each is reported with its reason. -/
theorem generate_selects_assorted : ∃ generated,
    (assorted.generate marked).result = .ok generated ∧ marked.docMode = .entryId ∧
      List.Forall₂ (assorted.IsSourceOf marked) [assortedModule] generated ∧
      generated.map (·.fileName) = ["b.rs"] ∧
      (assorted.generate marked).events.map Event.notice =
        [(.debug, "skipping built-in module 'stdint.h'"),
          (.warn, "module 'other/x.h' is outside 'taichi/', skipped"),
          (.info, "processing module 'taichi/a.h'"),
          (.warn, "module 'taichi/a.h' requires 'stdint.h' which is outside 'taichi/', skipped"),
          (.info, "processing module 'taichi/b.h'"),
          (.info, "processing module 'taichi/c.h'"),
          (.warn,
            "module 'taichi/c.h' requires 'other/x.h' which is outside 'taichi/', skipped")] := by
  obtain ⟨generated, h⟩ : ∃ generated, (assorted.generate marked).result = .ok generated :=
    ⟨_, rfl⟩
  obtain ⟨hsources, hnotices⟩ := generate_selects h
  have hwritten : assorted.modules.filter (marked.Generates ·) = [assortedModule] := by
    decide
  have hfiles : (assorted.generate marked).result.map (·.map (·.fileName)) = .ok ["b.rs"] := by
    decide +kernel
  rw [hwritten] at hsources
  rw [h] at hfiles
  exact ⟨generated, h, rfl, hsources, Except.ok.inj hfiles, (hnotices rfl).trans (by decide)⟩

end Api

end Bindery
