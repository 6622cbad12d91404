import Bindery.Proofs.Imports

/-!
# Modules do not interfere

A run shares the registry and the settings among all modules, and a module looks others up by their
paths. Where all paths differ, a look-up does not depend on the order of the modules.

* `generateOne_congr`: **what a run makes of a module** depends on the registry and on which paths
  are built-in, and on nothing else of the interface.
* `generateAll_eq_ok_iff`: a run succeeds if it does so on each module, and its sources are those of
  the modules in their order.
* `generate_of_perm`: **the order of the modules decides only the order of the sources.**
-/

namespace Bindery.Api

variable {api api' : Api} {cfg : Config}

/-- Where all paths differ, a module is found exactly under its own path. -/
theorem module?_eq_some_iff (hnames : (api.modules.map Module.name).Nodup) {path : String}
    {m : Module} : api.module? path = some m ↔ m ∈ api.modules ∧ m.name = path := by
  constructor
  · intro h
    exact ⟨List.mem_of_find?_eq_some h, by simpa using List.find?_some h⟩
  · rintro ⟨hm, rfl⟩
    have hsome : (api.module? m.name).isSome = true := by
      unfold module?
      rw [List.find?_isSome]
      exact ⟨m, hm, by simp⟩
    obtain ⟨n, hn⟩ := Option.isSome_iff_exists.1 hsome
    have hname : n.name = m.name := by simpa using List.find?_some hn
    rw [hn, List.inj_on_of_nodup_map hnames (List.mem_of_find?_eq_some hn) hm hname]

/-- A look-up does not depend on the order of the modules. -/
theorem module?_of_perm (hperm : api'.modules.Perm api.modules)
    (hnames : (api.modules.map Module.name).Nodup) (path : String) :
    api'.module? path = api.module? path := by
  have hnames' : (api'.modules.map Module.name).Nodup :=
    (hperm.map Module.name).nodup_iff.2 hnames
  refine Option.ext fun m => ?_
  rw [module?_eq_some_iff hnames, module?_eq_some_iff hnames', hperm.mem_iff]

/-- The other modules give the imports of a module no more than the built-in paths. -/
theorem importLines_congr (hb : ∀ path, api'.isBuiltIn path = api.isBuiltIn path) (m : Module) :
    api'.importLines cfg m = api.importLines cfg m := by
  unfold importLines
  rw [List.filter_congr fun path _ => congrArg (! ·) (hb path)]

/-- **What a run makes of a module**, events included, is the same for every interface with the same
registry and the same built-in paths. -/
theorem generateOne_congr (hr : api'.registry = api.registry)
    (hb : ∀ path, api'.isBuiltIn path = api.isBuiltIn path) (m : Module) :
    api'.generateOne cfg m = api.generateOne cfg m := by
  have hscript : api'.moduleScript cfg m = api.moduleScript cfg m := by
    unfold moduleScript
    rw [hr, importLines_congr hb m]
  unfold generateOne generateModule
  rw [hscript]

/-- What a run makes of a module does not depend on the order of the modules. -/
theorem generateOne_of_perm (hr : api'.registry = api.registry)
    (hperm : api'.modules.Perm api.modules) (hnames : (api.modules.map Module.name).Nodup)
    (m : Module) : api'.generateOne cfg m = api.generateOne cfg m := by
  refine generateOne_congr hr (fun path => ?_) m
  unfold isBuiltIn
  rw [module?_of_perm hperm hnames path]

/-- The source that a run makes of a module, if it makes one. -/
def source? (api : Api) (cfg : Config) (m : Module) : Option GeneratedModule :=
  match (api.generateOne cfg m).result with
  | .ok made => made
  | .error _ => none

theorem source?_of_ok {m : Module} {made : Option GeneratedModule}
    (h : (api.generateOne cfg m).result = .ok made) : api.source? cfg m = made := by
  unfold source?
  rw [h]

/-- **A run succeeds exactly if it does so on each module**, and then its sources are those of the
modules in their order. -/
theorem generateAll_eq_ok_iff {ms : List Module} {generated : List GeneratedModule} :
    (api.generateAll cfg ms).result = .ok generated ↔
      (∀ m ∈ ms, ∃ made, (api.generateOne cfg m).result = .ok made) ∧
        generated = ms.filterMap (api.source? cfg) := by
  induction ms generalizing generated with
  | nil => simp [generateAll, eq_comm]
  | cons m ms ih =>
    have hstep : (api.generateAll cfg (m :: ms)).result = .ok generated ↔
        ∃ made, (api.generateOne cfg m).result = .ok made ∧
          ∃ more, (api.generateAll cfg ms).result = .ok more ∧
            made.toList ++ more = generated := by
      rw [generateAll, Outcome.result_andThen_eq_ok]
      refine exists_congr fun made => and_congr_right fun _ => ?_
      rw [Outcome.result_map]
      rcases (api.generateAll cfg ms).result with err | more <;> simp [Except.map]
    have hcons : ∀ made, (api.generateOne cfg m).result = .ok made →
        (m :: ms).filterMap (api.source? cfg) = made.toList ++ ms.filterMap (api.source? cfg) := by
      intro made hone
      rw [List.filterMap_cons, source?_of_ok hone]
      cases made <;> rfl
    rw [hstep, List.forall_mem_cons]
    constructor
    · rintro ⟨made, hone, more, hmore, rfl⟩
      obtain ⟨hok, rfl⟩ := ih.1 hmore
      exact ⟨⟨⟨made, hone⟩, hok⟩, (hcons made hone).symm⟩
    · rintro ⟨⟨⟨made, hone⟩, hok⟩, rfl⟩
      exact ⟨made, hone, _, ih.2 ⟨hok, rfl⟩, (hcons made hone).symm⟩

/-- The sources of a run that succeeds belong to different modules, if all paths differ. -/
theorem eq_of_module_eq {generated : List GeneratedModule}
    (h : (api.generate cfg).result = .ok generated)
    (hnames : (api.modules.map Module.name).Nodup) {a b : GeneratedModule} (ha : a ∈ generated)
    (hb : b ∈ generated) (hab : a.module = b.module) : a = b := by
  obtain ⟨m, hm, hma⟩ := ((generateAll_eq_ok h).2 a).1 ha
  obtain ⟨n, hn, hnb⟩ := ((generateAll_eq_ok h).2 b).1 hb
  have hname : m.name = n.name := by
    rw [(generateOne_eq_some_iff.1 hma).2.1, (generateOne_eq_some_iff.1 hnb).2.1, hab]
  obtain rfl : m = n := List.inj_on_of_nodup_map hnames hm hn hname
  rw [hma] at hnb
  exact Option.some.inj (Except.ok.inj hnb)

/-- **The order of the modules decides only the order of the sources.** For modules with different
paths, a run over another order of the same modules succeeds exactly if the first one does. Then its
sources are a permutation of the first ones: each module has the same source under the same name. -/
theorem generate_of_perm (hr : api'.registry = api.registry)
    (hperm : api'.modules.Perm api.modules) (hnames : (api.modules.map Module.name).Nodup)
    (cfg : Config) :
    ((∃ generated, (api'.generate cfg).result = .ok generated) ↔
        ∃ generated, (api.generate cfg).result = .ok generated) ∧
      ∀ generated generated', (api.generate cfg).result = .ok generated →
        (api'.generate cfg).result = .ok generated' → generated'.Perm generated ∧
          ∀ a ∈ generated, ∀ b ∈ generated', a.module = b.module →
            a.source = b.source ∧ a.stem = b.stem ∧ a.fileName = b.fileName := by
  have hone : ∀ m, api'.generateOne cfg m = api.generateOne cfg m :=
    generateOne_of_perm hr hperm hnames
  have hsource : api'.source? cfg = api.source? cfg := by
    funext m
    unfold source?
    rw [hone m]
  constructor
  · unfold generate
    simp only [generateAll_eq_ok_iff, exists_and_left, exists_eq, and_true, hone]
    exact forall_congr' fun m => imp_congr_left hperm.mem_iff
  · intro generated generated' h h'
    have hlists : generated'.Perm generated := by
      rw [(generateAll_eq_ok_iff.1 h).2, (generateAll_eq_ok_iff.1 h').2, hsource]
      exact hperm.filterMap _
    refine ⟨hlists, fun a ha b hb hab => ?_⟩
    obtain rfl : a = b := eq_of_module_eq h hnames ha (hlists.mem_iff.1 hb) hab
    exact ⟨rfl, rfl, rfl⟩

/-- The three modules of the sample, the last one first. -/
def relinked : Api :=
  { linked with modules := linked.modules.reverse }

/-- The sample of three modules in the opposite order has the same two sources, in the
opposite order. -/
theorem generate_of_perm_linked :
    relinked.registry = linked.registry ∧ relinked.modules.Perm linked.modules ∧
      (linked.modules.map Module.name).Nodup ∧
      ∃ generated generated', (linked.generate .default).result = .ok generated ∧
        (relinked.generate .default).result = .ok generated' ∧ generated'.Perm generated ∧
        generated.map (·.stem) = ["a", "b"] ∧ generated'.map (·.stem) = ["b", "a"] := by
  have hr : relinked.registry = linked.registry := rfl
  have hperm : relinked.modules.Perm linked.modules := List.reverse_perm _
  have hnames : (linked.modules.map Module.name).Nodup := by decide
  obtain ⟨hiff, hsame⟩ := generate_of_perm hr hperm hnames .default
  obtain ⟨generated, h, -⟩ := linked_generated
  obtain ⟨generated', h'⟩ := hiff.2 ⟨generated, h⟩
  have hstems : (linked.generate .default).result.map (·.map (·.stem)) = .ok ["a", "b"] := by
    decide +kernel
  have hstems' : (relinked.generate .default).result.map (·.map (·.stem)) = .ok ["b", "a"] := by
    decide +kernel
  rw [h] at hstems
  rw [h'] at hstems'
  exact ⟨hr, hperm, hnames, generated, generated', h, h', (hsame _ _ h h').1,
    Except.ok.inj hstems, Except.ok.inj hstems'⟩

end Bindery.Api
