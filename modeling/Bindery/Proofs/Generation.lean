import Bindery.Binding.Source
import Bindery.Proofs.Declaration
import Bindery.Proofs.Loading

/-!
# When generation succeeds

* `Config.Owns`, `Config.Generates`: the modules that a run writes.
* `generateModule_decides`, `generateAll_decides`: one module, and modules one after the other.
* `generate_ok_iff_declarable`: **a run succeeds exactly if every declaration of the modules that it
  writes is declarable**, and it fails only for such a declaration.
-/

namespace Bindery

/-- A path of the interface's own. -/
def Config.Owns (cfg : Config) (path : String) : Prop :=
  cfg.scope.toList <+: path.toList

instance (cfg : Config) (path : String) : Decidable (cfg.Owns path) :=
  inferInstanceAs (Decidable (_ <+: _))

/-- **A module that a run writes**: one of the interface's own that needs no foreign one. -/
structure Config.Generates (cfg : Config) (m : Module) : Prop where
  notBuiltIn : m.builtIn = false
  own : cfg.Owns m.name
  requires : ∀ path ∈ m.requires, cfg.Owns path

theorem owns_iff {cfg : Config} {path : String} :
    cfg.Owns path ↔ ∃ stem, cfg.stem? path = some stem := by
  unfold Config.Owns Config.stem?
  constructor
  · rintro ⟨rest, hrest⟩
    rw [Text.afterFront?_eq_some.2 hrest.symm]
    exact ⟨_, rfl⟩
  · rintro ⟨stem, hstem⟩
    obtain ⟨rest, hrest, -⟩ := Option.map_eq_some_iff.1 hstem
    exact ⟨rest, (Text.afterFront?_eq_some.1 hrest).symm⟩

theorem foreignRequirement?_eq_none_iff {cfg : Config} {m : Module} :
    Api.foreignRequirement? cfg m = none ↔ ∀ path ∈ m.requires, cfg.Owns path := by
  unfold Api.foreignRequirement?
  rw [List.find?_eq_none]
  refine forall₂_congr fun path _ => ?_
  rw [owns_iff, Option.isNone_iff_eq_none, ← Option.ne_none_iff_exists']

namespace Outcome

variable {α β : Type}

@[simp] theorem result_ok (a : α) : (ok a).result = .ok a := rfl

@[simp] theorem result_after (e : Event) (o : Outcome α) : (o.after e).result = o.result := rfl

@[simp] theorem result_map (f : α → β) (o : Outcome α) : (o.map f).result = o.result.map f := rfl

theorem decides_andThen {o : Outcome α} {f : α → Outcome β} {P Q : Prop}
    (ho : Decides o.result P) (hf : ∀ a, Decides (f a).result Q) :
    Decides (o.andThen f).result (P ∧ Q) := by
  unfold andThen
  generalize hx : o.result = x at ho ⊢
  cases ho with
  | ok hp => exact (hf _).congr ⟨fun hq => ⟨hp, hq⟩, fun hq => hq.2⟩
  | error hs hp => exact .error hs fun hq => hp hq.1

end Outcome

namespace Api

variable {api : Api} {cfg : Config}

/-- In a module, a declaration stands behind a blank line, if there is one. -/
theorem declarationScript_cases {s : Setting} {id : String} {e : Entry}
    (he : s.registry.find? id = some e) :
    declarationScript s id = s.declare e ∨ declarationScript s id = .code "" :: s.declare e := by
  simp only [declarationScript, Registry.resolve, he]
  split
  · rename_i hnil
    exact .inl hnil.symm
  · exact .inr rfl

theorem failures_declarationScript {s : Setting} {id : String} {e : Entry}
    (he : s.registry.find? id = some e) :
    (declarationScript s id).failures = (s.declare e).failures := by
  rcases declarationScript_cases he with h | h
  · rw [h]
  · rw [h]
    rfl

/-- The result for a module that is the interface's own. -/
theorem result_generateModule {m : Module} (hb : m.builtIn = false)
    (hf : foreignRequirement? cfg m = none) :
    (api.generateModule cfg m).result = (api.moduleScript cfg m).result.map fun lines =>
      some (unlines (lines ++ reexportLines (api.moduleScript cfg m))) := by
  simp [generateModule, hb, hf]

/-- A module that is passed over has no source. -/
theorem result_generateModule_skipped {m : Module}
    (h : m.builtIn = true ∨ (foreignRequirement? cfg m).isSome = true) :
    (api.generateModule cfg m).result = .ok none := by
  unfold generateModule
  split
  · rfl
  · rename_i hb
    obtain ⟨path, hf⟩ := Option.isSome_iff_exists.1 (h.resolve_left hb)
    simp only [hf]
    rfl

section Decided

variable (hr : api.registry.Closed) (hu : api.registry.Unfolds)
include hr hu

theorem declarationScript_decides {s : Setting} (hs : s.registry = api.registry) {id : String}
    (hid : api.registry.contains id = true) :
    (declarationScript s id).Decides (api.registry.Declarable id) := by
  obtain ⟨e, he, -⟩ := Registry.find?_of_contains hid
  have hd : api.registry.Declarable id ↔ e.Declarable api.registry := by
    constructor
    · rintro ⟨e', he', h⟩
      rw [he] at he'
      rwa [Option.some.inj he']
    · exact fun h => ⟨e, he, h⟩
  have hdecl := Setting.declare_decides (s := s) (hs ▸ hr) (hs ▸ hu)
    (e := e) (hs ▸ Registry.mem_of_find? he)
  rw [hs] at hdecl
  unfold Script.Decides
  rw [failures_declarationScript (hs ▸ he)]
  exact Script.Decides.congr hdecl hd.symm

theorem moduleScript_decides {m : Module}
    (hm : ∀ id ∈ m.declares, api.registry.contains id = true) :
    (api.moduleScript cfg m).Decides (∀ id ∈ m.declares, api.registry.Declarable id) := by
  unfold moduleScript
  refine ((Script.decides_true ?_).append (Script.decides_flatMap fun id hid =>
    declarationScript_decides hr hu rfl (hm id hid))).congr (by simp)
  simp only [Script.collect_append, Script.collect_map_code Step.error? fun _ => rfl,
    List.append_nil]
  split
  · exact Setting.failures_moduleDoc
  · rfl

/-- The source of a module is there exactly if what it declares is declarable, or it has none. -/
theorem generateModule_decides {m : Module}
    (hm : ∀ id ∈ m.declares, api.registry.contains id = true) :
    Decides (api.generateModule cfg m).result
      (m.builtIn = false → (∀ path ∈ m.requires, cfg.Owns path) →
        ∀ id ∈ m.declares, api.registry.Declarable id) := by
  by_cases hb : m.builtIn = true
  · rw [generateModule, if_pos hb]
    exact .ok fun hn => by simp [hb] at hn
  rw [Bool.not_eq_true] at hb
  rcases hf : foreignRequirement? cfg m with _ | path
  · have howned := foreignRequirement?_eq_none_iff.1 hf
    rw [result_generateModule hb hf]
    refine (Script.decides_result (moduleScript_decides hr hu hm)).map.congr ?_
    exact ⟨fun h _ _ => h, fun h => h hb howned⟩
  · -- a module that needs a foreign one has no source, and nothing in it can fail
    have hdecided : Decides (api.generateModule cfg m).result True := by
      simpa [generateModule, hb, hf] using Decides.ok trivial
    refine hdecided.congr ⟨fun _ _ hown => ?_, fun _ => trivial⟩
    rw [foreignRequirement?_eq_none_iff.2 hown] at hf
    cases hf

theorem generateOne_decides {m : Module}
    (hm : ∀ id ∈ m.declares, api.registry.contains id = true) :
    Decides (api.generateOne cfg m).result
      (cfg.Generates m → ∀ id ∈ m.declares, api.registry.Declarable id) := by
  unfold generateOne
  by_cases hb : m.builtIn = true
  · rw [if_pos hb]
    exact .ok fun hg => by simp [hg.notBuiltIn] at hb
  rw [if_neg hb]
  rcases hs : cfg.stem? m.name with _ | stem
  · -- a module outside the scope is passed over
    refine .ok fun hg => ?_
    obtain ⟨stem, hstem⟩ := owns_iff.1 hg.own
    rw [hs] at hstem
    cases hstem
  · refine (generateModule_decides hr hu hm).map.congr ?_
    exact ⟨fun h hg => h hg.notBuiltIn hg.requires,
      fun h hn hown => h ⟨hn, owns_iff.2 ⟨stem, hs⟩, hown⟩⟩

theorem generateAll_decides {ms : List Module}
    (hm : ∀ m ∈ ms, ∀ id ∈ m.declares, api.registry.contains id = true) :
    Decides (api.generateAll cfg ms).result
      (∀ m ∈ ms, cfg.Generates m → ∀ id ∈ m.declares, api.registry.Declarable id) := by
  induction ms with
  | nil => exact .ok (by simp)
  | cons m ms ih =>
    have hone : Decides (api.generateOne cfg m).result _ :=
      generateOne_decides hr hu (hm m (by simp))
    have hmore := ih fun n hn => hm n (List.mem_cons_of_mem _ hn)
    exact (Outcome.decides_andThen hone fun generated => hmore.map).congr
      (by rw [List.forall_mem_cons])

end Decided

theorem sample_unfolds : sample.registry.Unfolds :=
  Registry.unfolds_of_rank (fun id => if id = "callback.f" then 1 else 0) (by decide)

theorem sample_declarable : ∀ id ∈ sampleModule.declares, sample.registry.Declarable id := by
  have hhandle : sample.registry.Projectable "handle.y" :=
    .intro rfl (by decide) (by decide) (by simp [Entry.signature?])
  have hcallback : sample.registry.Projectable "callback.f" := by
    refine .intro rfl (by decide) (by decide) fun s hs t ht => ?_
    obtain rfl := Option.some.inj hs
    obtain rfl : t = "handle.y" := by simpa [Signature.references] using ht
    exact hhandle
  intro id hid
  simp only [sampleModule, List.mem_cons, List.not_mem_nil, or_false] at hid
  rcases hid with rfl | rfl | rfl | rfl | rfl
  · exact ⟨_, rfl, by simp [Shape.references], by simp [Shape.cases]⟩
  · exact ⟨_, rfl, by simp [Shape.references], by simp [Shape.cases]⟩
  · exact ⟨_, rfl, by simp [Shape.references], by decide⟩
  · exact ⟨_, rfl, trivial⟩
  · exact ⟨_, rfl, by simpa [Shape.references] using hcallback, by simp [Shape.cases]⟩

/-- **When a run succeeds.** For a loaded interface whose callbacks do not contain themselves, a run
succeeds exactly if every declaration of every module that it writes is declarable. It fails only
because something is not a type or a case begins with a digit. -/
theorem generate_ok_iff_declarable {table : BuiltinTable} {text : String} {api : Api}
    (h : Api.ofText table text = .ok api) (hu : api.registry.Unfolds) (cfg : Config) :
    ((∃ generated, (api.generate cfg).result = .ok generated) ↔
        ∀ m ∈ api.modules, cfg.Generates m → ∀ id ∈ m.declares, api.registry.Declarable id) ∧
      ∀ err, (api.generate cfg).result = .error err →
        (∃ id kind, err = .notAType id kind) ∨ ∃ id case, err = .unsupportedCase id case := by
  have hall : Decides (api.generate cfg).result _ :=
    generateAll_decides (closed_of_ofText h) hu (consistent_of_ofText h).declared
  refine ⟨hall.ok_iff, fun err herr => ?_⟩
  have hs := hall.structural herr
  cases err with
  | notAType id kind => exact Or.inl ⟨id, kind, rfl⟩
  | unsupportedCase id case => exact Or.inr ⟨id, case, rfl⟩
  | _ => exact hs.elim

/-- The sample is written: the callback that its structure holds takes a handle. -/
theorem generate_sample_ok :
    Api.ofText .empty sampleText = .ok sample ∧ sample.registry.Unfolds ∧
      ∃ generated, (sample.generate .default).result = .ok generated := by
  refine ⟨ofText_sample, sample_unfolds, ?_⟩
  refine (generate_ok_iff_declarable ofText_sample sample_unfolds .default).1.2 fun m hm _ => ?_
  obtain rfl : m = sampleModule := List.mem_singleton.1 hm
  exact sample_declarable

end Api

end Bindery
